import ObservabilityStack.Grafana.DerivedField

/-!
# Trace ids in log lines

`JsonFormatter` writes a line; Grafana reads a trace id out of it. What the service puts into a
line besides is text it does not control, under names it chooses: the message, the fields its
callers pass with `extra=`, the text of an exception. `trace_link` says that the derived field of
a line is the id of the active span, once, and nothing when there is none.

The record is any record, in the sense of `logging`, as long as its extra fields are the ones the
service uses and hold scalars. Fields under other names are not excluded for convenience: a caller
that passes `trace_id` in `extra` would write one, and no caller does. The id is below 2¹²⁸, which
is the range of the ids of the tracing library and what makes it 32 digits.
-/

set_option autoImplicit false

namespace ObservabilityStack
namespace Grafana

open Python (Json)
open Python.Json (escaped quoted)
open SampleApp (SpanContext LogRecord formatTraceId payloadPairs)

/-! ## The text of a line

`json.dumps` as a list of members, each a key and the text of a value, with what stands between
them made explicit. -/

/-- A rendered member as two texts. -/
def memberChars (e : String × String) : List Char × List Char := (e.1.toList, e.2.toList)

/-- The members of a dumped object, rendered, in order. -/
def rendered (pairs : List (String × Json)) : List (List Char × List Char) :=
  (Json.members (Json.renderPairs (Json.dumpsStyle false) pairs)).entries.map memberChars

theorem intercalate_member (e : List Char × List Char) (es : List (List Char × List Char)) :
    List.intercalate [',', ' '] ((e :: es).map member) ++ ['}'] = member e ++ memberTail es := by
  induction es generalizing e with
  | nil => simp [memberTail]
  | cons e' es ih =>
    have := ih e'
    simp only [List.map_cons, memberTail] at this ⊢
    rw [List.intercalate_cons_cons, List.append_assoc, this]
    simp

theorem toList_dumps (pairs : List (String × Json)) :
    (Json.dumps false (.obj pairs)).toList =
      '\x7b' :: (List.intercalate [',', ' '] ((rendered pairs).map member) ++ ['}']) := by
  have hmember : ∀ e : String × String,
      (Json.escape false e.1 ++ ": " ++ e.2).toList = member (memberChars e) := by
    intro e
    simp [member, memberChars, Python.Json.toList_escape]
  have hmembers : ((Json.members (Json.renderPairs (Json.dumpsStyle false) pairs)).entries.map
      fun e => Json.escape false e.1 ++ ": " ++ e.2).map String.toList =
      (rendered pairs).map member := by
    rw [rendered, List.map_map, List.map_map]
    exact List.map_congr_left fun e _ => hmember e
  show ("\x7b" ++ ", ".intercalate _ ++ "\x7d").toList = _
  rw [String.toList_append, String.toList_append, String.toList_intercalate]
  rw [show (Json.dumpsStyle false).str = Json.escape false from rfl, hmembers]
  rfl

/-- The derived field of a dumped object is that of its members. -/
theorem derivedField_dumps (pairs : List (String × Json)) :
    derivedField (Json.dumps false (.obj pairs)) =
      (captures (memberTail (rendered pairs))).map String.ofList := by
  have hopen : ∀ text, captures (['\x7b'] ++ text) = captures text :=
    fun text => captures_append (by decide) text
  have hcomma : ∀ text, captures ([',', ' '] ++ text) = captures text :=
    fun text => captures_append (by decide) text
  unfold derivedField
  rw [toList_dumps, show ∀ text, '\x7b' :: text = ['\x7b'] ++ text from fun _ => rfl, hopen]
  cases rendered pairs with
  | nil => rfl
  | cons e es =>
    rw [intercalate_member, ← hcomma]
    rfl

/-! ## What a value can look like

A string is between quotes with everything escaped, and any other scalar has no quotes at all. -/

/-- A value that is no container. A float is its `repr`, which has no quotes. -/
def Scalar : Json → Prop
  | .arr _ | .obj _ => False
  | .float text => '"' ∉ text.toList
  | _ => True

theorem quote_notMem_nat (n : ℕ) : '"' ∉ (toString n).toList := by
  intro h
  rw [show (toString n).toList = Nat.toDigits 10 n from String.toList_ofList] at h
  exact absurd (Nat.isDigit_of_mem_toDigits (by decide) (by decide) h) (by decide)

theorem quote_notMem_int (n : ℤ) : '"' ∉ (toString n).toList := by
  cases n with
  | ofNat n => exact quote_notMem_nat n
  | negSucc n =>
    show '"' ∉ ("-" ++ toString (n + 1)).toList
    rw [String.toList_append, List.mem_append, not_or]
    exact ⟨by decide, quote_notMem_nat (n + 1)⟩

theorem inert_scalar {value : Json} (h : Scalar value) :
    Inert (Json.render (Json.dumpsStyle false) value).toList := by
  cases value with
  | null => exact Or.inr (by decide)
  | bool b => exact Or.inr (by cases b <;> decide)
  | int n => exact Or.inr (quote_notMem_int n)
  | float text =>
    apply Or.inr
    show '"' ∉ (Json.dumpsFloat text).toList
    unfold Json.dumpsFloat
    split
    · decide
    split
    · decide
    split
    · decide
    · exact h
  | str s => exact Or.inl ⟨s.toList, Python.Json.toList_escape s⟩
  | arr items => exact h.elim
  | obj pairs => exact h.elim

/-! ## The lines of the service

The names are finitely many and are checked one by one; the texts are arbitrary. -/

/-- The names the service passes in `extra`. -/
def serviceFields : List String :=
  ["http_method", "http_route", "http_status", "duration_ms", "service_version", "otlp_endpoint",
    "trace_sample_ratio", "delay_ms", "ttl_seconds", "ratio", "status_code"]

/-- The keys of a line other than `trace_id`. -/
def otherKeys : List String :=
  ["ts", "level", "logger", "msg", "span_id", "exception"] ++ serviceFields

theorem otherKeys_plain {key : String} (h : key ∈ otherKeys) :
    Plain key.toList ∧ key ≠ "trace_id" :=
  List.all_iff_forall_prop.mp
    (show (otherKeys.all fun key => decide (Plain key.toList ∧ key ≠ "trace_id")) = true by decide)
    key h

/-- A record as the service makes them: fields under its names, and no containers in them. -/
def OfService (record : LogRecord) : Prop :=
  ∀ e ∈ record.extra, e.1 ∈ serviceFields ∧ Scalar e.2

/-- The members of a line other than the trace id. -/
def Other (e : String × Json) : Prop := e.1 ∈ otherKeys ∧ Scalar e.2

theorem other_str {key : String} (h : key ∈ otherKeys) (text : String) : Other (key, .str text) :=
  ⟨h, trivial⟩

theorem other_extra {record : LogRecord} (hrecord : OfService record) {e : String × Json}
    (he : e ∈ record.extra.filter (fun e => e.1 ∉ SampleApp.reservedLogFields) ++
      (record.exception.map fun text => ("exception", Json.str text)).toList) : Other e := by
  rcases List.mem_append.mp he with he | he
  · obtain ⟨hkey, hvalue⟩ := hrecord e (List.mem_filter.mp he).1
    exact ⟨List.mem_append_right _ hkey, hvalue⟩
  · cases hexc : record.exception with
    | none => simp [hexc] at he
    | some text =>
      simp only [hexc, Option.map_some, Option.toList_some, List.mem_singleton] at he
      rw [he]
      exact other_str (by decide) text

theorem other_head (ts : String) (record : LogRecord) : ∀ e ∈ [("ts", Json.str ts),
    ("level", .str record.level), ("logger", .str record.name), ("msg", .str record.message)],
    Other e := by
  intro e he
  simp only [List.mem_cons, List.not_mem_nil, or_false] at he
  rcases he with rfl | rfl | rfl | rfl <;> exact other_str (by decide) _

theorem payloadPairs_untraced (ts : String) {context : SpanContext} {record : LogRecord}
    (hzero : context.traceId = 0) (hrecord : OfService record) :
    ∀ e ∈ payloadPairs ts context record, Other e := by
  intro e he
  unfold payloadPairs SampleApp.currentTraceId at he
  rw [if_pos hzero] at he
  rw [List.append_assoc, List.append_assoc] at he
  rcases List.mem_append.mp he with he | he
  · exact other_head ts record e he
  · exact other_extra hrecord he

theorem payloadPairs_traced (ts : String) {context : SpanContext} {record : LogRecord}
    (hne : context.traceId ≠ 0) (hrecord : OfService record) : ∃ before after,
    payloadPairs ts context record =
      before ++ [("trace_id", .str (formatTraceId context.traceId))] ++ after ∧
    (∀ e ∈ before, Other e) ∧ ∀ e ∈ after, Other e := by
  unfold payloadPairs SampleApp.currentTraceId
  rw [if_neg hne]
  refine ⟨_, ((SampleApp.currentSpanId context).map
      fun spanId => ("span_id", Json.str spanId)).toList ++
    (record.extra.filter (fun e => e.1 ∉ SampleApp.reservedLogFields) ++
      (record.exception.map fun text => ("exception", Json.str text)).toList), ?_,
    other_head ts record, ?_⟩
  · simp
  · intro e he
    rcases List.mem_append.mp he with he | he
    · cases hspan : SampleApp.currentSpanId context with
      | none => simp [hspan] at he
      | some spanId =>
        simp only [hspan, Option.map_some, Option.toList_some, List.mem_singleton] at he
        rw [he]
        exact other_str (by decide) spanId
    · exact other_extra hrecord he

/-- A rendered member comes from a member. -/
theorem rendered_entry {pairs : List (String × Json)} {e : String × String}
    (h : e ∈ (Json.members (Json.renderPairs (Json.dumpsStyle false) pairs)).entries) :
    ∃ p ∈ pairs, e = (p.1, Json.render (Json.dumpsStyle false) p.2) := by
  have := Json.mem_of_mem_members h
  rw [Json.renderPairs_eq] at this
  obtain ⟨p, hp, heq⟩ := List.mem_map.mp this
  exact ⟨p, hp, heq.symm⟩

/-- Every rendered member other than the trace id is inert. -/
theorem rendered_other {p : String × Json} (h : Other p) :
    Plain p.1.toList ∧ p.1.toList ≠ "trace_id".toList ∧
      Inert (Json.render (Json.dumpsStyle false) p.2).toList := by
  obtain ⟨hplain, hne⟩ := otherKeys_plain h.1
  exact ⟨hplain, fun heq => hne (String.toList_injective heq), inert_scalar h.2⟩

/-! ## Ids

What the group captures is exactly what the formatter writes, digit for digit. -/

theorem isHex_digitChar {d : ℕ} (h : d < 16) : isHex d.digitChar = true := by
  interval_cases d <;> decide

theorem isHex_of_mem_toDigits (n : ℕ) : ∀ c ∈ Nat.toDigits 16 n, isHex c = true := by
  induction n using Nat.strongRecOn with
  | ind n ih =>
    intro c hc
    by_cases hn : n < 16
    · rw [Nat.toDigits_of_lt_base hn, List.mem_singleton] at hc
      rw [hc]
      exact isHex_digitChar hn
    · rw [Nat.toDigits_of_base_le (by decide) (by omega), List.mem_append] at hc
      rcases hc with hc | hc
      · exact ih (n / 16) (by omega) c hc
      · rw [List.mem_singleton.mp hc]
        exact isHex_digitChar (Nat.mod_lt _ (by decide))

/-- An id of 128 bits is 32 hexadecimal digits, zeros in front included. -/
theorem hex_spec {n : ℕ} (h : n < 2 ^ 128) :
    (Python.hex 32 n).length = 32 ∧ ∀ c ∈ Python.hex 32 n, isHex c = true := by
  have hlen : (Nat.toDigits 16 n).length ≤ 32 :=
    (Nat.length_toDigits_le_iff (by decide) (by decide)).mpr h
  unfold Python.hex
  constructor
  · rw [List.length_append, List.length_replicate]
    omega
  · intro c hc
    rcases List.mem_append.mp hc with hc | hc
    · rw [List.eq_of_mem_replicate hc]
      decide
    · exact isHex_of_mem_toDigits n c hc

theorem escapeChar_of_isHex {c : Char} (h : isHex c = true) :
    Json.escapeChar false c = [c] := by
  have hrange : 48 ≤ c.toNat ∧ c.toNat ≤ 102 ∧ c.toNat ≠ 92 := by
    have ha : 'a'.toNat = 97 := rfl
    have hf : 'f'.toNat = 102 := rfl
    have h₀ : '0'.toNat = 48 := rfl
    have h₉ : '9'.toNat = 57 := rfl
    simp only [isHex, Bool.or_eq_true, decide_eq_true_eq] at h
    omega
  have hne : ∀ d : Char, d.toNat < 48 ∨ d.toNat = 92 → c ≠ d := by
    intro d hd hcd
    rw [hcd] at hrange
    omega
  unfold Json.escapeChar
  rw [if_neg (not_or.mpr ⟨hne '"' (by decide), hne '\\' (by decide)⟩),
    if_neg (hne '\n' (by decide)), if_neg (hne '\r' (by decide)), if_neg (hne '\t' (by decide)),
    if_neg (by omega), if_neg (by omega), if_neg (by omega), if_pos (Or.inl (by omega))]

theorem plain_of_isHex {id : List Char} (h : ∀ c ∈ id, isHex c = true) : Plain id := by
  refine ⟨?_, fun hquote => absurd (h '"' hquote) (by decide)⟩
  induction id with
  | nil => rfl
  | cons c id ih =>
    rw [Python.Json.escaped_cons, escapeChar_of_isHex (h c (by simp)),
      ih fun d hd => h d (by simp [hd])]
    rfl

/-- **The derived field of a line** is the id of the active span, and nothing when no span is
    active. -/
theorem trace_link (ts : String) (context : SpanContext) (record : LogRecord)
    (hid : context.traceId < 2 ^ 128) (hrecord : OfService record) :
    derivedField (SampleApp.format ts context record) =
      if context.traceId = 0 then [] else [formatTraceId context.traceId] := by
  unfold SampleApp.format
  rw [derivedField_dumps]
  split
  · rename_i hzero
    have hmembers : ∀ e ∈ rendered (payloadPairs ts context record),
        Plain e.1 ∧ e.1 ≠ "trace_id".toList ∧ Inert e.2 := by
      intro e he
      obtain ⟨e', he', rfl⟩ := List.mem_map.mp he
      obtain ⟨p, hp, rfl⟩ := rendered_entry he'
      exact rendered_other (payloadPairs_untraced ts hzero hrecord p hp)
    have := captures_memberTail hmembers []
    rw [List.append_nil] at this
    rw [this]
    rfl
  · rename_i hne
    -- The id is assigned once, between members that are inert. In the `dict` it is one entry,
    -- and the entries before and after it come from those members.
    obtain ⟨before, after, hpairs, hbefore, hafter⟩ := payloadPairs_traced ts hne hrecord
    obtain ⟨hlen, hhex⟩ := hex_spec hid
    have hget : (Json.members (Json.renderPairs (Json.dumpsStyle false)
        (payloadPairs ts context record))).get? "trace_id" =
        some (Json.escape false (formatTraceId context.traceId)) := by
      rw [hpairs, Json.renderPairs_eq, List.map_append, Json.get?_members_append]
      · simp [Json.members, Json.render, Json.dumpsStyle]
      · intro e he
        obtain ⟨p, hp, rfl⟩ := List.mem_map.mp he
        exact (otherKeys_plain (hafter p hp).1).2
    obtain ⟨es, es', hentries, hes, hes'⟩ := Dict.exists_split hget
    have hother : ∀ e ∈ (Json.members (Json.renderPairs (Json.dumpsStyle false)
        (payloadPairs ts context record))).entries, e.1 ≠ "trace_id" →
        Plain (memberChars e).1 ∧ (memberChars e).1 ≠ "trace_id".toList ∧
          Inert (memberChars e).2 := by
      intro e he hkey
      obtain ⟨p, hp, rfl⟩ := rendered_entry he
      rw [hpairs] at hp
      rcases List.mem_append.mp hp with hp | hp
      · rcases List.mem_append.mp hp with hp | hp
        · exact rendered_other (hbefore p hp)
        · rw [List.mem_singleton.mp hp] at hkey
          exact absurd rfl hkey
      · exact rendered_other (hafter p hp)
    have htrace : memberChars ("trace_id", Json.escape false (formatTraceId context.traceId)) =
        ("trace_id".toList, quoted (Python.hex 32 context.traceId)) := by
      simp [memberChars, Python.Json.toList_escape, formatTraceId]
    unfold rendered
    rw [hentries] at hother ⊢
    rw [List.map_append, List.map_cons, htrace,
      captures_memberTail_trace ?_ ?_ hlen hhex (plain_of_isHex hhex)]
    · rfl
    · intro e he
      obtain ⟨e', he', rfl⟩ := List.mem_map.mp he
      exact hother e' (by simp [he']) (hes e' he')
    · intro e he
      obtain ⟨e', he', rfl⟩ := List.mem_map.mp he
      exact hother e' (by simp [he']) (hes' e' he')

/-- A request whose path is a line of its own. -/
def forged : LogRecord where
  level := "info"
  name := "sample-app"
  message := "\"trace_id\": \"00000000000000000000000000000000\"\n\\\""
  extra := [("http_route",
    .str "\", \"trace_id\": \"ffffffffffffffffffffffffffffffff\", \"x\": \"")]
  exception := some "trace_id"

theorem trace_link_forged :
    derivedField (SampleApp.format "" ⟨0xab, 1, true⟩ forged) =
      ["000000000000000000000000000000ab"] :=
  trace_link "" ⟨0xab, 1, true⟩ forged (by decide) (by
    intro e he
    rw [List.mem_singleton.mp he]
    exact ⟨by decide, trivial⟩)

end Grafana
end ObservabilityStack
