import ObservabilityStack.AlertSink.Server

/-!
# `alert_sink/check.py`: three sources, read one after the other

What `fetch_json` sees of a source is one of five things: `urlopen` raises `HTTPError`; it, or the
reading of the body, raises `URLError` or another `OSError`; `urlopen` raises an `HTTPException`,
because what came back is no HTTP response, or is cut short before its body; the reading raises
`IncompleteRead`, because the body is cut short; or there is a body. `json.loads` is the parameter
it is in the handler of the sink.

A connection that is closed before the first byte is in the second class and not in the third:
`RemoteDisconnected` is a `BadStatusLine`, but an `OSError` as well.

`collect` promises to degrade source by source. `Contributes` says what a source is to add to the
rows and to the problems, as a relation that mentions no other source. The promise is kept exactly
when no source `Escapes` (`collect_degrades_iff`): `fetch_json` catches no `HTTPException`, which
is no `OSError`, and none of the failures of `json.loads` that are no `JSONDecodeError`.

`Degrades` is therefore what the docstring of the module says, put as a composition: the rows are
those of the first source, then of the second, then of the third, and so are the problems. That the
loop has a state, the rows and the problems so far, is seen in `collectFrom_cons` and nowhere else.

The three parsers differ in where they find the list and in how they read an entry. Both are the
parameters of one proof, by `Kind`; the parsers themselves stay as the source has them.
-/

set_option autoImplicit false

namespace ObservabilityStack
namespace AlertSink

open Python (Json rstrip)

/-- `AlertRow`: an alert as one of the three sources reports it. -/
structure AlertRow where
  source : String
  alertname : String
  severity : String
  job : String
  state : String
  deriving DecidableEq, Repr

/-- How a source behaves when it is asked. -/
inductive Endpoint
  | httpError (code : ℕ)
  /-- `URLError`, `TimeoutError` or another `OSError`, and its text -/
  | unreachable (reason : String)
  /-- `urlopen` raises an `http.client.HTTPException` that is no `OSError`: a status line that is
      malformed or cut short (`BadStatusLine`), a line that is too long (`LineTooLong`), too many
      headers -/
  | httpException (text : String)
  /-- `response.read()` raises `IncompleteRead` -/
  | incompleteRead (text : String)
  | answered (body : List UInt8)
  deriving DecidableEq, Repr

/-- What `fetch_json` raises: its own `QueryError`, or what it does not catch. -/
inductive FetchError
  | query (message : String)
  | httpException (text : String)
  | incompleteRead (text : String)
  | loads (error : LoadsError)
  deriving DecidableEq, Repr

section Fetch

variable (loads : List UInt8 → Except LoadsError Json)

/-- `fetch_json`. -/
def fetchJson (url : String) : Endpoint → Except FetchError Json
  | .httpError code => .error (.query s!"{url} returned HTTP {code}")
  | .unreachable reason => .error (.query s!"{url} is unreachable: {reason}")
  | .httpException text => .error (.httpException text)
  | .incompleteRead text => .error (.incompleteRead text)
  | .answered body =>
      match loads body with
      | .ok payload => .ok payload
      | .error (.jsonDecode message) => .error (.query s!"{url} did not return JSON: {message}")
      | .error error => .error (.loads error)

end Fetch

/-! ## The three parsers

A parser is total: whatever the payload is, it returns the rows it finds, and a payload of another
shape has none. Whether that is right is asked where the rows are counted. -/

section Parsers

variable [Unicode]

/-- `_labels`. -/
def labels : Json → Dict String String
  | .obj entry =>
      match Json.get entry "labels" with
      | .obj raw => Json.members (raw.map fun p => (p.1, p.2.toStr))
      | _ => .empty
  | _ => .empty

/-- The row of an entry of Prometheus' list. -/
def prometheusRow (entry : List (String × Json)) : AlertRow :=
  let labels := labels (.obj entry)
  { source := "prometheus"
    alertname := labels.getD "alertname" "?"
    severity := labels.getD "severity" "-"
    job := labels.getD "job" "-"
    state := (Json.getD entry "state" (.str "unknown")).toStr }

/-- The row of an entry of Alertmanager's list. -/
def alertmanagerRow (entry : List (String × Json)) : AlertRow :=
  let labels := labels (.obj entry)
  { source := "alertmanager"
    alertname := labels.getD "alertname" "?"
    severity := labels.getD "severity" "-"
    job := labels.getD "job" "-"
    state :=
      match Json.get entry "status" with
      | .obj status => (Json.getD status "state" (.str "unknown")).toStr
      | _ => "unknown" }

/-- The row of an entry of the sink's list. -/
def sinkRow (entry : List (String × Json)) : AlertRow where
  source := "notified"
  alertname := (Json.getD entry "alertname" (.str "?")).toStr
  severity := (Json.getD entry "severity" (.str "-")).toStr
  job := (Json.getD entry "job" (.str "-")).toStr
  state := (Json.getD entry "status" (.str "unknown")).toStr

/-- The loop of the three parsers: what is no object is passed over. -/
def rowsOf (row : List (String × Json) → AlertRow) (entries : List Json) : List AlertRow :=
  entries.foldl (fun rows entry =>
    match entry with
    | .obj pairs => rows ++ [row pairs]
    | _ => rows) []

/-- `prometheus_alerts`. -/
def prometheusAlerts : Json → List AlertRow
  | .obj payload =>
      match Json.get payload "data" with
      | .obj data =>
          match Json.get data "alerts" with
          | .arr alerts => rowsOf prometheusRow alerts
          | _ => []
      | _ => []
  | _ => []

/-- `alertmanager_alerts`. -/
def alertmanagerAlerts : Json → List AlertRow
  | .arr payload => rowsOf alertmanagerRow payload
  | _ => []

/-- `sink_alerts`. -/
def sinkAlerts : Json → List AlertRow
  | .arr payload => rowsOf sinkRow payload
  | _ => []

/-! ## The loop over the sources

The loop stops at the first exception that is no `QueryError`. What it had found by then is lost
with it, since the rows are only returned at the end. -/

/-- A URL, the parser of what it answers, and how it behaves this time. -/
structure Source where
  url : String
  parser : Json → List AlertRow
  endpoint : Endpoint

/-- How the three sources behave. -/
structure Behaviours where
  prometheus : Endpoint
  alertmanager : Endpoint
  sink : Endpoint
  deriving DecidableEq, Repr

/-- `sources`. -/
def sources (prometheus alertmanager sink : String) (b : Behaviours) : List Source :=
  [⟨rstrip prometheus '/' ++ "/api/v1/alerts", prometheusAlerts, b.prometheus⟩,
   ⟨rstrip alertmanager '/' ++ "/api/v2/alerts", alertmanagerAlerts, b.alertmanager⟩,
   ⟨rstrip sink '/' ++ "/alerts/firing", sinkAlerts, b.sink⟩]

variable (loads : List UInt8 → Except LoadsError Json)

/-- The loop of `collect`, with the rows and the problems so far. -/
def collectFrom : List AlertRow → List String → List Source →
    Except FetchError (List AlertRow × List String)
  | rows, problems, [] => .ok (rows, problems)
  | rows, problems, source :: rest =>
      match fetchJson loads source.url source.endpoint with
      | .ok payload => collectFrom (rows ++ source.parser payload) problems rest
      | .error (.query message) => collectFrom rows (problems ++ [message]) rest
      | .error error => .error error

/-- `collect`. -/
def collect (prometheus alertmanager sink : String) (b : Behaviours) :
    Except FetchError (List AlertRow × List String) :=
  collectFrom loads [] [] (sources prometheus alertmanager sink b)

/-! ## What a source is to contribute -/

/-- The alert list of a payload, if the payload has the shape the source answers with. -/
inductive Kind
  | prometheus
  | alertmanager
  | sink
  deriving DecidableEq, Repr

def Kind.alertList : Kind → Json → Option (List Json)
  | .prometheus, .obj payload =>
      match Json.get payload "data" with
      | .obj data =>
          match Json.get data "alerts" with
          | .arr alerts => some alerts
          | _ => none
      | _ => none
  | .prometheus, _ => none
  | _, .arr payload => some payload
  | _, _ => none

/-- The row for an entry, by the source it comes from. -/
def Kind.row : Kind → List (String × Json) → AlertRow
  | .prometheus => prometheusRow
  | .alertmanager => alertmanagerRow
  | .sink => sinkRow

/-- The parser of each source. -/
def Kind.parser : Kind → Json → List AlertRow
  | .prometheus => prometheusAlerts
  | .alertmanager => alertmanagerAlerts
  | .sink => sinkAlerts

/-- The objects among the entries of a list, in order. -/
def objects (entries : List Json) : List (List (String × Json)) :=
  entries.filterMap fun entry =>
    match entry with
    | .obj pairs => some pairs
    | _ => none

/-- The body of the answer is valid JSON, and this is its value. -/
def Answers (endpoint : Endpoint) (payload : Json) : Prop :=
  ∃ body, endpoint = .answered body ∧ loads body = .ok payload

/-- The rows and the problems of one source, by itself. -/
inductive Contributes (kind : Kind) (endpoint : Endpoint) :
    List AlertRow → List String → Prop
  | alerts (payload : Json) (entries : List Json) (hbody : Answers loads endpoint payload)
      (hlist : kind.alertList payload = some entries) :
      Contributes kind endpoint ((objects entries).map kind.row) []
  | unexpected (payload : Json) (hbody : Answers loads endpoint payload)
      (hlist : kind.alertList payload = none) : Contributes kind endpoint [] []
  | problem (message : String) (hbody : ∀ payload, ¬ Answers loads endpoint payload) :
      Contributes kind endpoint [] [message]

/-- `collect` returns, and each source has contributed its part in its turn. -/
def Degrades (prometheus alertmanager sink : String) (b : Behaviours) : Prop :=
  ∃ rows₁ rows₂ rows₃ problems₁ problems₂ problems₃,
    collect loads prometheus alertmanager sink b =
      .ok (rows₁ ++ rows₂ ++ rows₃, problems₁ ++ problems₂ ++ problems₃) ∧
    Contributes loads .prometheus b.prometheus rows₁ problems₁ ∧
    Contributes loads .alertmanager b.alertmanager rows₂ problems₂ ∧
    Contributes loads .sink b.sink rows₃ problems₃

/-- The response is malformed or cut short before its body, or cut short in it, or its body makes
    `json.loads` fail with something other than `JSONDecodeError`. -/
def Escapes (endpoint : Endpoint) : Prop :=
  (∃ text, endpoint = .httpException text) ∨ (∃ text, endpoint = .incompleteRead text) ∨
    ∃ body error, endpoint = .answered body ∧ loads body = .error error ∧
      ∀ message, error ≠ .jsonDecode message

/-! ## The parsers are total -/

omit [Unicode] in
theorem rowsOf_eq (row : List (String × Json) → AlertRow) (entries : List Json) :
    rowsOf row entries = (objects entries).map row := by
  unfold rowsOf objects
  induction entries using List.reverseRecOn with
  | nil => rfl
  | append_singleton entries entry ih =>
    rw [List.foldl_append, ih, List.filterMap_append, List.map_append]
    cases entry <;> simp

theorem parser_eq (kind : Kind) (payload : Json) :
    kind.parser payload =
      ((kind.alertList payload).elim [] fun entries => (objects entries).map kind.row) := by
  cases kind with
  | prometheus =>
    cases payload with
    | obj payload =>
      simp only [Kind.parser, Kind.alertList, prometheusAlerts]
      split
      · split
        · rw [rowsOf_eq]
          rfl
        · rfl
      · rfl
    | _ => rfl
  | alertmanager =>
    cases payload with
    | arr payload => exact rowsOf_eq alertmanagerRow payload
    | _ => rfl
  | sink =>
    cases payload with
    | arr payload => exact rowsOf_eq sinkRow payload
    | _ => rfl

/-! ## What one fetch does

`fetch_json` either returns a payload, raises its own exception, or lets one through. The third is
`Escapes`, and the other two are the two ways to contribute. -/

variable {loads}

omit [Unicode] in
/-- A source that escapes raises what `collect` does not catch. -/
theorem fetchJson_escapes {endpoint : Endpoint} (url : String) (h : Escapes loads endpoint) :
    ∃ error, fetchJson loads url endpoint = .error error ∧ ∀ message, error ≠ .query message := by
  rcases h with ⟨text, rfl⟩ | ⟨text, rfl⟩ | ⟨body, error, rfl, hloads, hother⟩
  · exact ⟨.httpException text, rfl, fun message hm => by cases hm⟩
  · exact ⟨.incompleteRead text, rfl, fun message hm => by cases hm⟩
  · refine ⟨.loads error, ?_, fun message hm => by cases hm⟩
    cases error with
    | jsonDecode message => exact absurd rfl (hother message)
    | unicodeDecode message => simp only [fetchJson, hloads]
    | intDigits message => simp only [fetchJson, hloads]
    | recursion message => simp only [fetchJson, hloads]

omit [Unicode] in
theorem not_answers {endpoint : Endpoint} (h : ∀ body, endpoint ≠ .answered body)
    (payload : Json) : ¬ Answers loads endpoint payload := by
  intro ha
  obtain ⟨body, hbody, _⟩ := ha
  exact h body hbody

omit [Unicode] in
/-- Any other source is answered with a payload, or its failure is a problem. -/
theorem fetchJson_of_not_escapes {endpoint : Endpoint} (url : String)
    (h : ¬ Escapes loads endpoint) :
    (∃ payload, Answers loads endpoint payload ∧ fetchJson loads url endpoint = .ok payload) ∨
      ∃ message, (∀ payload, ¬ Answers loads endpoint payload) ∧
        fetchJson loads url endpoint = .error (.query message) := by
  cases endpoint with
  | httpError code => exact Or.inr ⟨_, not_answers (by simp), rfl⟩
  | unreachable reason => exact Or.inr ⟨_, not_answers (by simp), rfl⟩
  | httpException text => exact absurd (Or.inl ⟨text, rfl⟩) h
  | incompleteRead text => exact absurd (Or.inr (Or.inl ⟨text, rfl⟩)) h
  | answered body =>
    cases hloads : loads body with
    | ok payload => exact Or.inl ⟨payload, ⟨body, rfl, hloads⟩, by simp [fetchJson, hloads]⟩
    | error error =>
      by_cases hsyntax : ∃ message, error = .jsonDecode message
      · obtain ⟨message, rfl⟩ := hsyntax
        refine Or.inr ⟨_, ?_, by simp only [fetchJson, hloads]; rfl⟩
        intro payload ha
        obtain ⟨body', hb, hok⟩ := ha
        cases hb
        rw [hloads] at hok
        cases hok
      · exact absurd (Or.inr (Or.inr ⟨body, error, rfl, hloads, fun m hm => hsyntax ⟨m, hm⟩⟩)) h

/-- **One turn of the loop.** A source that does not escape adds its contribution, whatever was
    there before and whatever comes after. -/
theorem collectFrom_cons (kind : Kind) (url : String) {endpoint : Endpoint}
    (h : ¬ Escapes loads endpoint) :
    ∃ rows problems, Contributes loads kind endpoint rows problems ∧
      ∀ rows₀ problems₀ rest,
        collectFrom loads rows₀ problems₀ (⟨url, kind.parser, endpoint⟩ :: rest) =
          collectFrom loads (rows₀ ++ rows) (problems₀ ++ problems) rest := by
  rcases fetchJson_of_not_escapes url h with ⟨payload, hans, hfetch⟩ | ⟨message, hans, hfetch⟩
  · refine ⟨kind.parser payload, [], ?_, ?_⟩
    · rw [parser_eq]
      cases hlist : kind.alertList payload with
      | none => exact .unexpected payload hans hlist
      | some entries => exact .alerts payload entries hans hlist
    · intro rows₀ problems₀ rest
      rw [collectFrom, hfetch, List.append_nil]
  · refine ⟨[], [message], .problem message hans, ?_⟩
    intro rows₀ problems₀ rest
    rw [collectFrom, hfetch, List.append_nil]

omit [Unicode] in
/-- The loop only returns when no source escapes. -/
theorem not_escapes_of_collectFrom {sources : List Source} {rows : List AlertRow}
    {problems : List String} {r : List AlertRow × List String}
    (h : collectFrom loads rows problems sources = .ok r) :
    ∀ source ∈ sources, ¬ Escapes loads source.endpoint := by
  induction sources generalizing rows problems with
  | nil => intro source hs; exact absurd hs (by simp)
  | cons source rest ih =>
    -- The loop went on behind this source, so what the fetch raised, if anything, was caught.
    have hhead : ¬ Escapes loads source.endpoint := by
      intro hesc
      obtain ⟨error, hfetch, hother⟩ := fetchJson_escapes source.url hesc
      rw [collectFrom, hfetch] at h
      cases error with
      | query message => exact hother message rfl
      | httpException text => cases h
      | incompleteRead text => cases h
      | loads error => cases h
    intro s hs
    rcases List.mem_cons.mp hs with rfl | hs
    · exact hhead
    · rw [collectFrom] at h
      split at h
      · exact ih h s hs
      · exact ih h s hs
      · cases h

/-- The loop over sources that do not escape. -/
theorem degrades_of_not_escapes (prometheus alertmanager sink : String) {b : Behaviours}
    (hp : ¬ Escapes loads b.prometheus) (ha : ¬ Escapes loads b.alertmanager)
    (hs : ¬ Escapes loads b.sink) : Degrades loads prometheus alertmanager sink b := by
  obtain ⟨rows₁, problems₁, hc₁, hrun₁⟩ := collectFrom_cons .prometheus
    (rstrip prometheus '/' ++ "/api/v1/alerts") hp
  obtain ⟨rows₂, problems₂, hc₂, hrun₂⟩ := collectFrom_cons .alertmanager
    (rstrip alertmanager '/' ++ "/api/v2/alerts") ha
  obtain ⟨rows₃, problems₃, hc₃, hrun₃⟩ := collectFrom_cons .sink
    (rstrip sink '/' ++ "/alerts/firing") hs
  refine ⟨rows₁, rows₂, rows₃, problems₁, problems₂, problems₃, ?_, hc₁, hc₂, hc₃⟩
  calc collect loads prometheus alertmanager sink b
      = collectFrom loads ([] ++ rows₁) ([] ++ problems₁) _ := hrun₁ [] [] _
    _ = collectFrom loads ([] ++ rows₁ ++ rows₂) ([] ++ problems₁ ++ problems₂) _ := hrun₂ _ _ _
    _ = collectFrom loads ([] ++ rows₁ ++ rows₂ ++ rows₃)
          ([] ++ problems₁ ++ problems₂ ++ problems₃) [] := hrun₃ _ _ _
    _ = .ok (rows₁ ++ rows₂ ++ rows₃, problems₁ ++ problems₂ ++ problems₃) := rfl

theorem not_escapes_of_collect {prometheus alertmanager sink : String} {b : Behaviours}
    {r : List AlertRow × List String}
    (h : collect loads prometheus alertmanager sink b = .ok r) :
    ¬ Escapes loads b.prometheus ∧ ¬ Escapes loads b.alertmanager ∧ ¬ Escapes loads b.sink := by
  have hall := not_escapes_of_collectFrom h
  simp only [sources, List.mem_cons, List.not_mem_nil, or_false, forall_eq_or_imp,
    forall_eq] at hall
  exact hall

/-- **`check-alerts` degrades source by source exactly when no source escapes.** -/
theorem collect_degrades_iff (loads : List UInt8 → Except LoadsError Json)
    (prometheus alertmanager sink : String) (b : Behaviours) :
    Degrades loads prometheus alertmanager sink b ↔
      ¬ Escapes loads b.prometheus ∧ ¬ Escapes loads b.alertmanager ∧ ¬ Escapes loads b.sink := by
  constructor
  · intro h
    obtain ⟨_, _, _, _, _, _, hcollect, _⟩ := h
    exact not_escapes_of_collect hcollect
  · intro h
    obtain ⟨hp, ha, hs⟩ := h
    exact degrades_of_not_escapes prometheus alertmanager sink hp ha hs

end Parsers

/-- Prometheus is down and the sink answers with an error; the answer of Alertmanager ends before
    the length it announced. -/
def cutShort : Behaviours where
  prometheus := .unreachable "<urlopen error [Errno 111] Connection refused>"
  alertmanager := .incompleteRead "IncompleteRead(17 bytes read, 83 more expected)"
  sink := .httpError 503

theorem collect_cutShort : ¬ ∀ (loads : List UInt8 → Except LoadsError Json)
    (prometheus alertmanager sink : String) (b : Behaviours),
    @Degrades Python.latin1 loads prometheus alertmanager sink b := by
  intro h
  obtain ⟨_, _, _, _, _, _, hcollect, _⟩ := h (fun _ => .ok .null) "http://localhost:9090"
    "http://localhost:9093" "http://localhost:9095" cutShort
  exact absurd hcollect (by intro hc; cases hc)

end AlertSink
end ObservabilityStack
