import ObservabilityStack.AlertSink.Logging
import ObservabilityStack.Python.JsonLines

/-!
# The log stream, read back

Both services write their log with a `StreamHandler` and a `JsonFormatter`, and Promtail reads the
stream a line at a time. What a record is to say under a key is `Written.read`, which knows nothing
of lines or of JSON: the text of an exception before a field of the caller, a field of the caller
before the ids of the span, and these before the four fields every record has.

This is the last step on the way of a record. `SampleApp.Telemetry` and `AlertSink.Logging` say what
a formatter assigns to its payload, in the order it does, `Python.JsonRoundTrip` that a value can be
read back, and `Python.JsonLines` that it takes one line. Nothing of the record is left by then but
its fields, so nothing here depends on which service wrote it, and a reader of the stream need not
know it either.

Two things are asked of a record. Its texts are sequences of Unicode scalar values, as every
`String` is: Python's strings may hold a lone surrogate too, which `ensure_ascii=False` copies into
the line and which the stream then cannot encode, so that the line is lost. And its numbers are such
that `json.loads` accepts them (`Json.Readable`): an integer that is longer than `int` reads is
written and not read back.
-/

set_option autoImplicit false

namespace ObservabilityStack
namespace Promtail

open Python (Json splitLines)
open SampleApp (SpanContext LogRecord currentTraceId currentSpanId)

/-! ## Lookups in a `dict` that is filled in parts

A formatter fills a `dict` with its own fields, then with those of the caller, then with those that
come last. A later assignment wins, and these lemmas say who is later. -/

section Members

variable {β : Type} (xs ys : List (String × β)) (key : String)

/-- What is assigned later counts first. -/
theorem get?_members_or :
    (Json.members (xs ++ ys)).get? key =
      ((Json.members ys).get? key).or ((Json.members xs).get? key) := by
  induction ys using List.reverseRecOn with
  | nil =>
    rw [List.append_nil]
    rfl
  | append_singleton ys y ih =>
    have hset : ∀ zs : List (String × β), Json.members (zs ++ [y]) =
        (Json.members zs).set y.1 y.2 := fun zs => by simp [Json.members]
    rw [← List.append_assoc, hset, hset, Dict.get?_set, Dict.get?_set, ih]
    split <;> rfl

theorem get?_members_filter (p : String → Bool) :
    (Json.members (xs.filter fun e => p e.1)).get? key =
      if p key then (Json.members xs).get? key else none := by
  induction xs using List.reverseRecOn with
  | nil => split <;> rfl
  | append_singleton xs x ih =>
    have hset : ∀ zs : List (String × β), Json.members (zs ++ [x]) =
        (Json.members zs).set x.1 x.2 := fun zs => by simp [Json.members]
    rw [List.filter_append, hset, Dict.get?_set]
    by_cases hx : p x.1
    · have hkept : [x].filter (fun e => p e.1) = [x] := by simp [hx]
      rw [hkept, hset, Dict.get?_set, ih]
      by_cases hkey : key = x.1
      · rw [if_pos hkey, if_pos hkey, hkey, if_pos hx]
      · rw [if_neg hkey, if_neg hkey]
    · have hdropped : [x].filter (fun e => p e.1) = [] := by simp [hx]
      rw [hdropped, List.append_nil, ih]
      by_cases hkey : key = x.1
      · rw [hkey, if_neg hx, if_neg hx]
      · rw [if_neg hkey]

end Members

/-! ## What a line is to say -/

/-- A record that one of the services writes, with the time the formatter puts on it. -/
inductive Written
  | sampleApp (ts : String) (context : SpanContext) (record : LogRecord)
  | alertSink (ts : String) (record : LogRecord)

namespace Written

/-- The line, without the newline behind it. -/
def line : Written → String
  | .sampleApp ts context record => SampleApp.format ts context record
  | .alertSink ts record => AlertSink.format ts record

/-- The members of the object the line is, in order, a key possibly twice. -/
def pairs : Written → List (String × Json)
  | .sampleApp ts context record => SampleApp.payloadPairs ts context record
  | .alertSink ts record => AlertSink.payloadPairs ts record

/-- The record that was formatted. -/
def record : Written → LogRecord
  | .sampleApp _ _ record => record
  | .alertSink _ record => record

/-- The fields every record has. -/
def basic (ts : String) (record : LogRecord) (key : String) : Option Json :=
  if key = "ts" then some (.str ts)
  else if key = "level" then some (.str record.level)
  else if key = "logger" then some (.str record.name)
  else if key = "msg" then some (.str record.message)
  else none

/-- The ids of the span that was current, if there was one. -/
def correlation (context : SpanContext) (key : String) : Option Json :=
  if context.traceId = 0 then none
  else if key = "trace_id" then (currentTraceId context).map Json.str
  else if key = "span_id" then (currentSpanId context).map Json.str
  else none

/-- A field the caller passed with `extra=`. -/
def passed (reserved : List String) (record : LogRecord) (key : String) : Option Json :=
  if key ∈ reserved then none else (Json.members record.extra).get? key

/-- The traceback, if the record carries an exception. -/
def raised (record : LogRecord) (key : String) : Option Json :=
  if key = "exception" then record.exception.map Json.str else none

/-- The value of a key of the line: where a key comes twice the later member wins, so the
    exception goes before the extra fields and these before the rest. -/
def read : Written → String → Option Json
  | .sampleApp ts context record, key =>
      (raised record key).or ((passed SampleApp.reservedLogFields record key).or
        ((correlation context key).or (basic ts record key)))
  | .alertSink ts record, key =>
      (passed AlertSink.reservedLogFields record key).or (basic ts record key)

theorem line_eq (w : Written) : w.line = Json.dumps false (.obj w.pairs) := by
  cases w <;> rfl

theorem get?_basic (ts : String) (record : LogRecord) (key : String) :
    (Json.members [("ts", Json.str ts), ("level", Json.str record.level),
      ("logger", Json.str record.name), ("msg", Json.str record.message)]).get? key =
        basic ts record key := by
  unfold basic Json.members
  simp only [List.foldl_cons, List.foldl_nil, Dict.get?_set, Dict.get?_empty]
  by_cases hts : key = "ts"
  · simp [hts]
  by_cases hlevel : key = "level"
  · simp [hlevel]
  by_cases hlogger : key = "logger"
  · simp [hlogger]
  · simp [hts, hlevel, hlogger]

theorem get?_passed (reserved : List String) (record : LogRecord) (key : String) :
    (Json.members (record.extra.filter fun e => e.1 ∉ reserved)).get? key =
      passed reserved record key := by
  rw [get?_members_filter record.extra key fun k => decide (k ∉ reserved)]
  by_cases hkey : key ∈ reserved <;> simp [passed, hkey]

theorem get?_correlation (context : SpanContext) (key : String) :
    (Json.members (match currentTraceId context with
      | none => []
      | some traceId => ("trace_id", Json.str traceId) ::
          ((currentSpanId context).map fun spanId => ("span_id", Json.str spanId)).toList)).get?
        key = correlation context key := by
  unfold correlation currentTraceId
  by_cases htrace : context.traceId = 0
  · rw [if_pos htrace, if_pos htrace]
    rfl
  · rw [if_neg htrace, if_neg htrace]
    dsimp only
    cases currentSpanId context with
    | none =>
      simp only [Json.members, Option.map_none, Option.toList_none, List.foldl_cons,
        List.foldl_nil, Dict.get?_set, Dict.get?_empty]
      by_cases hkey : key = "trace_id" <;> simp [hkey]
    | some spanId =>
      simp only [Json.members, Option.map_some, Option.toList_some, List.foldl_cons,
        List.foldl_nil, Dict.get?_set, Dict.get?_empty]
      by_cases hkey : key = "trace_id" <;> simp [hkey]

theorem get?_raised (record : LogRecord) (key : String) :
    (Json.members (record.exception.map fun text => ("exception", Json.str text)).toList).get?
      key = raised record key := by
  unfold raised
  cases record.exception with
  | none => by_cases hkey : key = "exception" <;> simp [Json.members, hkey]
  | some text => by_cases hkey : key = "exception" <;> simp [Json.members, hkey]

/-- The entries the formatter assigns say under every key what the record is to say. -/
theorem get?_pairs (w : Written) (key : String) : (Json.members w.pairs).get? key = w.read key := by
  cases w with
  | sampleApp ts context record =>
    show (Json.members (SampleApp.payloadPairs ts context record)).get? key = _
    unfold SampleApp.payloadPairs
    rw [get?_members_or, get?_members_or, get?_members_or, get?_raised, get?_passed, get?_basic]
    exact congrArg (fun ids => (raised record key).or
      ((passed SampleApp.reservedLogFields record key).or (ids.or (basic ts record key))))
      (get?_correlation context key)
  | alertSink ts record =>
    show (Json.members (AlertSink.payloadPairs ts record)).get? key = _
    unfold AlertSink.payloadPairs
    rw [get?_members_or, get?_passed, get?_basic]
    rfl

/-- An entry is a text, or a field of the caller. -/
theorem mem_pairs {w : Written} {p : String × Json} (h : p ∈ w.pairs) :
    (∃ text, p.2 = .str text) ∨ p ∈ w.record.extra := by
  have hbasic : ∀ {ts : String} {record : LogRecord}, p ∈ [("ts", Json.str ts),
      ("level", Json.str record.level), ("logger", Json.str record.name),
      ("msg", Json.str record.message)] → ∃ text, p.2 = .str text := by
    intro ts record hp
    simp only [List.mem_cons, List.not_mem_nil, or_false] at hp
    rcases hp with rfl | rfl | rfl | rfl <;> exact ⟨_, rfl⟩
  have hoption : ∀ {key : String} {text : Option String},
      p ∈ (text.map fun t => (key, Json.str t)).toList → ∃ text, p.2 = .str text := by
    intro key text hp
    obtain ⟨t, -, rfl⟩ := Option.map_eq_some_iff.mp (Option.mem_toList.mp hp)
    exact ⟨t, rfl⟩
  cases w with
  | sampleApp ts context record =>
    rcases List.mem_append.mp h with h | h
    · rcases List.mem_append.mp h with h | h
      · rcases List.mem_append.mp h with h | h
        · exact Or.inl (hbasic h)
        · cases htrace : currentTraceId context with
          | none =>
            rw [htrace] at h
            exact absurd h List.not_mem_nil
          | some traceId =>
            rw [htrace] at h
            rcases List.mem_cons.mp h with rfl | h
            · exact Or.inl ⟨traceId, rfl⟩
            · exact Or.inl (hoption h)
      · exact Or.inr (List.mem_of_mem_filter h)
    · exact Or.inl (hoption h)
  | alertSink ts record =>
    rcases List.mem_append.mp h with h | h
    · exact Or.inl (hbasic h)
    · exact Or.inr (List.mem_of_mem_filter h)

theorem readable {reprFloat : String → String} {w : Written}
    (h : ∀ e ∈ w.record.extra, Json.Readable reprFloat e.2) :
    Json.Readable reprFloat (.obj w.pairs) := by
  refine .obj fun p hp => ?_
  rcases mem_pairs hp with ⟨text, htext⟩ | hextra
  · rw [htext]
    exact .str text
  · exact h p hextra

theorem newline_notMem_line {reprFloat : String → String} {w : Written}
    (h : ∀ e ∈ w.record.extra, Json.Readable reprFloat e.2) : '\n' ∉ w.line.toList := by
  intro hmem
  rw [line_eq] at hmem
  exact absurd (Json.printed_dumps false (readable h) '\n' hmem) (by decide)

end Written

/-- **The log stream reads back.** Whatever texts the records hold, line breaks and quotes included,
    and whatever numbers `json.loads` can read, the stream has one line for each of them, and
    `json.loads` of the line is an object that says under every key what the record says: nothing is
    lost, added or mixed up with another record. -/
theorem log_stream_reads_back {reprFloat : String → String} (records : List Written)
    (h : ∀ w ∈ records, ∀ e ∈ w.record.extra, Json.Readable reprFloat e.2) :
    splitLines (Json.stream (records.map Written.line)) = records.map Written.line ++ [""] ∧
      ∀ w ∈ records, ∃ entries : List (String × Json),
        Json.loads reprFloat w.line = some (.obj entries) ∧ (entries.map Prod.fst).Nodup ∧
        ∀ key, (Json.members entries).get? key = (w.read key).map Json.normal := by
  constructor
  · refine Json.splitLines_stream fun line hline => ?_
    obtain ⟨w, hw, rfl⟩ := List.mem_map.mp hline
    exact Written.newline_notMem_line (h w hw)
  · intro w hw
    refine ⟨(Json.members (Json.normalPairs w.pairs)).entries, ?_,
      (Json.members (Json.normalPairs w.pairs)).nodup, fun key => ?_⟩
    · rw [Written.line_eq, Json.loads_dumps false (Written.readable (h w hw))]
      rfl
    · have hself := Json.entries_members (Json.members (Json.normalPairs w.pairs)).nodup
      rw [Dict.get?_of_perm (List.Perm.of_eq hself), Json.normalPairs_eq,
        Json.get?_members_map fun _ v => Json.normal v, Written.get?_pairs]

def unhandled : Written :=
  .sampleApp "2026-01-01T00:00:00+0000" ⟨0x4bf92f3577b34da6, 0xb7ad6b71, true⟩
    ⟨"error", "app", "request failed\n\"boom\"",
      [("http_route", .str "/orders/\x7bid\x7d"), ("attempts", .arr [.int 1, .null])],
      some "Traceback\n  RuntimeError: boom"⟩

def startedUp : Written :=
  .alertSink "2026-01-01T00:00:01+0000" ⟨"info", "alert-sink", "listening", [], none⟩

theorem log_stream_reads_back_unhandled :
    splitLines (Json.stream ([unhandled, startedUp].map Written.line)) =
      [unhandled.line, startedUp.line, ""] ∧
    ∃ entries : List (String × Json), Json.loads id unhandled.line = some (.obj entries) ∧
      ((Json.members entries).get? "attempts").isSome ∧
      ((Json.members entries).get? "span_id").isSome := by
  have hextra : ∀ w ∈ [unhandled, startedUp], ∀ e ∈ w.record.extra, Json.Readable id e.2 := by
    intro w hw e he
    simp only [List.mem_cons, List.not_mem_nil, or_false] at hw
    rcases hw with rfl | rfl
    · simp only [unhandled, Written.record, List.mem_cons, List.not_mem_nil, or_false] at he
      rcases he with rfl | rfl
      · exact .str _
      · refine .arr fun v hv => ?_
        simp only [List.mem_cons, List.not_mem_nil, or_false] at hv
        rcases hv with rfl | rfl
        · exact .int (by decide)
        · exact .null
    · exact absurd he List.not_mem_nil
  obtain ⟨hsplit, hloads⟩ := log_stream_reads_back [unhandled, startedUp] hextra
  obtain ⟨entries, hentries, -, hread⟩ := hloads unhandled List.mem_cons_self
  refine ⟨hsplit, entries, hentries, ?_, ?_⟩
  · rw [hread]
    decide
  · rw [hread]
    decide

end Promtail
end ObservabilityStack
