import Mathlib.Data.Bool.AllAny
import ObservabilityStack.Python.JsonEscape
import ObservabilityStack.SampleApp.Telemetry

/-!
# `grafana/provisioning/datasources/datasources.yml`: the derived field `trace_id`

Grafana searches every raw log line for `"trace_id":\s*"([a-f0-9]{32})"` and links what the group
captures. `matchAt` matches at the head of a text, `derivedField` at every position of a line;
`matchAt_eq_some` says what a match is without the order in which it is tried.

A line of the sample application has one match when a trace is active, its id, and none when none
is, whatever the message and the extra fields say (`trace_link`). Every match starts with a quote,
and a quote of a line is one of three: the first or the last of a string, or an escaped one inside
it. After an escaped quote or the first one of a string, `trace_id":` would have to be the rest of
that string and a colon after it, and only a key has a colon after it; after the last quote of a
string comes no letter.

The argument is one about text and not about JSON, because the expression is applied to text. It is
split by where a match could start, and each lemma consumes one piece of a line from the front: a
string that is a value, a key that is not `trace_id`, the key `trace_id` with an id. That the
expression is tried at every position, inside strings included, is what makes forged text a matter
of proof.
-/

set_option autoImplicit false

namespace ObservabilityStack
namespace Grafana

open Python (Json)
open Python.Json (escaped quoted escapeChar)

/-! ## The expression

The expression is small enough to be written out as a matcher. It has one repetition that can match
in several ways, the blanks, and what comes after is no blank, so the greedy match is the only
one. -/

/-- `\s` -/
def isBlank (c : Char) : Bool :=
  let n := c.toNat
  decide (9 ≤ n ∧ n ≤ 13) || decide (n = 0x20) || decide (n = 0xA0) || decide (n = 0x1680) ||
    decide (0x2000 ≤ n ∧ n ≤ 0x200A) || decide (n = 0x2028) || decide (n = 0x2029) ||
    decide (n = 0x202F) || decide (n = 0x205F) || decide (n = 0x3000) || decide (n = 0xFEFF)

/-- `[a-f0-9]` -/
def isHex (c : Char) : Bool :=
  decide ('a'.toNat ≤ c.toNat ∧ c.toNat ≤ 'f'.toNat) ||
    decide ('0'.toNat ≤ c.toNat ∧ c.toNat ≤ '9'.toNat)

/-- The expression up to its first blank. -/
def fieldStart : List Char := "\"trace_id\":".toList

/-- `"([a-f0-9]{32})"`, at the head of a text. -/
def captureAt : List Char → Option (List Char)
  | [] => none
  | c :: cs =>
      if c = '"' ∧ (cs.take 32).length = 32 ∧ (cs.take 32).all isHex ∧ ['"'] <+: cs.drop 32 then
        some (cs.take 32)
      else none

/-- The whole expression at the head of a text, and what its group captures. -/
def matchAt (cs : List Char) : Option (List Char) :=
  if fieldStart <+: cs then captureAt ((cs.drop fieldStart.length).dropWhile isBlank) else none

/-- The captures of the matches at all positions of a text. -/
def captures : List Char → List (List Char)
  | [] => []
  | c :: cs => (matchAt (c :: cs)).toList ++ captures cs

/-- The values of the derived field of a line. -/
def derivedField (line : String) : List String := (captures line.toList).map String.ofList

theorem captureAt_eq_some {cs id : List Char} :
    captureAt cs = some id ↔
      id.length = 32 ∧ (∀ c ∈ id, isHex c = true) ∧ ∃ rest, cs = '"' :: (id ++ '"' :: rest) := by
  cases cs with
  | nil => simp [captureAt]
  | cons c cs =>
    simp only [captureAt, Option.ite_none_right_eq_some, Option.some.injEq, List.all_eq_true]
    constructor
    · intro h
      obtain ⟨⟨hc, hlen, hhex, rest, hrest⟩, rfl⟩ := h
      refine ⟨hlen, hhex, rest, ?_⟩
      rw [hc, ← List.take_append_drop 32 cs, ← hrest]
      simp [hlen]
    · intro h
      obtain ⟨hlen, hhex, rest, hcs⟩ := h
      cases hcs
      have htake : (id ++ '"' :: rest).take 32 = id := by rw [← hlen, List.take_left]
      have hdrop : (id ++ '"' :: rest).drop 32 = '"' :: rest := by rw [← hlen, List.drop_left]
      rw [htake, hdrop]
      exact ⟨⟨rfl, hlen, hhex, rest, rfl⟩, rfl⟩

/-- A match is the field, blanks, and 32 hexadecimal digits between quotes. -/
theorem matchAt_eq_some {cs id : List Char} :
    matchAt cs = some id ↔ id.length = 32 ∧ (∀ c ∈ id, isHex c = true) ∧
      ∃ blanks rest, (∀ c ∈ blanks, isBlank c = true) ∧
        cs = fieldStart ++ blanks ++ '"' :: (id ++ '"' :: rest) := by
  unfold matchAt
  constructor
  · intro h
    split at h
    · rename_i hstart
      obtain ⟨tail, rfl⟩ := hstart
      rw [List.drop_left] at h
      obtain ⟨hlen, hhex, rest, hrest⟩ := captureAt_eq_some.mp h
      refine ⟨hlen, hhex, tail.takeWhile isBlank, rest, ?_, ?_⟩
      · intro c hc
        exact List.all_eq_true.mp List.all_takeWhile c hc
      · rw [← hrest, List.append_assoc, List.takeWhile_append_dropWhile]
    · cases h
  · intro h
    obtain ⟨hlen, hhex, blanks, rest, hblanks, rfl⟩ := h
    rw [List.append_assoc, if_pos (List.prefix_append _ _), List.drop_left,
      List.dropWhile_append_of_pos hblanks]
    -- The quote is no blank, so the blanks end there.
    apply captureAt_eq_some.mpr
    exact ⟨hlen, hhex, rest, List.dropWhile_cons_of_neg (by decide)⟩

/-! ## Where a match can start

Only at a quote. The lemmas go through the quotes of a member in the order in which they stand. -/

theorem fieldStart_eq : fieldStart = '"' :: ("trace_id".toList ++ ['"', ':']) := by decide

theorem matchAt_eq_none {cs : List Char} (h : ¬ fieldStart <+: cs) : matchAt cs = none := if_neg h

/-- Nothing matches at a character other than a quote. -/
theorem captures_append {text : List Char} (h : '"' ∉ text) (rest : List Char) :
    captures (text ++ rest) = captures rest := by
  induction text with
  | nil => rfl
  | cons c text ih =>
    obtain ⟨hc, htext⟩ := not_or.mp (mt List.mem_cons.mpr h)
    have hnone : matchAt (c :: (text ++ rest)) = none := by
      apply matchAt_eq_none
      rw [fieldStart_eq, List.cons_prefix_cons]
      exact fun hpre => hc hpre.1
    rw [List.cons_append, captures, hnone, ih htext]
    rfl

/-- Nothing matches at a quote that `trace_id":` does not follow. -/
theorem captures_quote {rest : List Char} (h : ¬ "trace_id".toList ++ ['"', ':'] <+: rest) :
    captures ('"' :: rest) = captures rest := by
  have hnone : matchAt ('"' :: rest) = none := by
    apply matchAt_eq_none
    rw [fieldStart_eq, List.cons_prefix_cons]
    exact fun hpre => h hpre.2
  rw [captures, hnone]
  rfl

theorem word_plain : ∀ c ∈ "trace_id".toList, c ≠ '"' ∧ c ≠ '\\' :=
  List.all_iff_forall_prop.mp (by decide)

/-- The last quote of a string: no letter comes after it. -/
theorem captures_closing {next : Char} (rest : List Char) (h : next ≠ 't') :
    captures ('"' :: next :: rest) = captures (next :: rest) := by
  apply captures_quote
  intro hpre
  have : "trace_id".toList ++ ['"', ':'] = 't' :: ("race_id".toList ++ ['"', ':']) := by decide
  rw [this, List.cons_prefix_cons] at hpre
  exact h hpre.1.symm

/-- Inside a string that is no key there is no match. -/
theorem captures_escaped (s : List Char) {next : Char} (rest : List Char) (h : next ≠ ':') :
    captures (escaped s ++ '"' :: next :: rest) = captures ('"' :: next :: rest) := by
  induction s with
  | nil => rfl
  | cons c s ih =>
    rw [Python.Json.escaped_cons, List.append_assoc]
    rcases Python.Json.escapeChar_cases c with ⟨hc, hquote, _⟩ | ⟨_, hc⟩ | ⟨t, hc, ht⟩
    · rw [hc, captures_append (by simpa using hquote.symm), ih]
    · -- An escaped quote: the rest of the string would have to be `trace_id`, and then a colon.
      rw [hc]
      show captures (['\\'] ++ ('"' :: (escaped s ++ '"' :: next :: rest))) = _
      rw [captures_append (by decide), captures_quote, ih]
      intro hpre
      have := (Python.Json.prefix_escaped word_plain hpre).2
      exact h (List.cons_prefix_cons.mp this).1.symm
    · rw [hc, captures_append (by simp [ht]), ih]

/-- **A value that is a string.** -/
theorem captures_value (s : List Char) {next : Char} (rest : List Char) (hcolon : next ≠ ':')
    (ht : next ≠ 't') : captures (quoted s ++ next :: rest) = captures (next :: rest) := by
  have hquoted : quoted s ++ next :: rest = '"' :: (escaped s ++ '"' :: next :: rest) := by
    simp [quoted]
  rw [hquoted, captures_quote, captures_escaped s rest hcolon, captures_closing rest ht]
  intro hpre
  have := (Python.Json.prefix_escaped word_plain hpre).2
  exact hcolon (List.cons_prefix_cons.mp this).1.symm

/-- A key whose characters are written as they are. -/
def Plain (key : List Char) : Prop := escaped key = key ∧ '"' ∉ key

instance (key : List Char) : Decidable (Plain key) := inferInstanceAs (Decidable (_ ∧ _))

/-- After the first quote of a key, up to the colon. -/
theorem captures_key_tail {key : List Char} (hkey : Plain key) (rest : List Char) :
    captures (escaped key ++ '"' :: ':' :: rest) = captures (':' :: rest) := by
  rw [hkey.1, captures_append hkey.2, captures_closing rest (by decide)]

/-- **A key other than `trace_id`.** -/
theorem captures_key {key : List Char} (hkey : Plain key) (hne : key ≠ "trace_id".toList)
    (rest : List Char) : captures (quoted key ++ ':' :: rest) = captures (':' :: rest) := by
  have hquoted : quoted key ++ ':' :: rest = '"' :: (escaped key ++ '"' :: ':' :: rest) := by
    simp [quoted]
  rw [hquoted, captures_quote, captures_key_tail hkey]
  intro hpre
  have := (Python.Json.prefix_escaped word_plain hpre).1
  exact hne (hkey.1.symm.trans this)

/-- **The key `trace_id` and an id.** -/
theorem captures_trace {id : List Char} (hlen : id.length = 32) (hhex : ∀ c ∈ id, isHex c = true)
    (hid : Plain id) {next : Char} (rest : List Char) (hcolon : next ≠ ':') (ht : next ≠ 't') :
    captures (quoted "trace_id".toList ++ ':' :: ' ' :: (quoted id ++ next :: rest)) =
      id :: captures (next :: rest) := by
  have hkey : Plain "trace_id".toList := by unfold Plain; decide
  have hquoted : quoted id ++ next :: rest = '"' :: (id ++ '"' :: next :: rest) := by
    simp [quoted, hid.1]
  have hline : quoted "trace_id".toList ++ ':' :: ' ' :: (quoted id ++ next :: rest) =
      '"' :: (escaped "trace_id".toList ++ '"' :: ':' :: ' ' :: (quoted id ++ next :: rest)) := by
    simp [quoted]
  have hmatch : matchAt (quoted "trace_id".toList ++ ':' :: ' ' :: (quoted id ++ next :: rest)) =
      some id := by
    apply matchAt_eq_some.mpr
    refine ⟨hlen, hhex, [' '], next :: rest, List.all_eq_true.mp (by decide), ?_⟩
    rw [hquoted, fieldStart_eq, quoted, hkey.1]
    simp
  rw [hline] at hmatch ⊢
  rw [captures, hmatch, captures_key_tail hkey]
  show id :: captures ([':', ' '] ++ (quoted id ++ next :: rest)) = _
  rw [captures_append (by decide), captures_value id rest hcolon ht]

/-! ## A line

The pieces in sequence: a line is an opening brace, members with commas between them, and a closing
brace. `Inert` is what a value has to be for its member to contribute nothing. -/

/-- The text of a member of the object. -/
def member (e : List Char × List Char) : List Char := quoted e.1 ++ ':' :: ' ' :: e.2

/-- The text after the first member, or the only one. -/
def memberTail : List (List Char × List Char) → List Char
  | [] => ['}']
  | e :: es => ',' :: ' ' :: (member e ++ memberTail es)

/-- What comes after a value is a comma or a brace. -/
theorem memberTail_eq (es : List (List Char × List Char)) :
    ∃ next rest, memberTail es = next :: rest ∧ next ≠ ':' ∧ next ≠ 't' := by
  cases es with
  | nil => exact ⟨'}', [], rfl, by decide, by decide⟩
  | cons e es => exact ⟨',', _, rfl, by decide, by decide⟩

/-- A value that cannot be taken for something else: a string, or a text without quotes. -/
def Inert (value : List Char) : Prop := (∃ s, value = quoted s) ∨ '"' ∉ value

/-- A member under another key contributes nothing… -/
theorem captures_member {e : List Char × List Char} (hkey : Plain e.1)
    (hne : e.1 ≠ "trace_id".toList) (hvalue : Inert e.2) (es : List (List Char × List Char)) :
    captures (member e ++ memberTail es) = captures (memberTail es) := by
  have hmember : member e ++ memberTail es =
      quoted e.1 ++ ':' :: ([' '] ++ (e.2 ++ memberTail es)) := by simp [member]
  obtain ⟨next, rest, htail, hcolon, ht⟩ := memberTail_eq es
  rw [hmember, captures_key hkey hne]
  show captures ([':', ' '] ++ (e.2 ++ memberTail es)) = _
  rw [captures_append (by decide), htail]
  rcases hvalue with ⟨s, hs⟩ | hvalue
  · rw [hs, captures_value s rest hcolon ht]
  · rw [captures_append hvalue]

/-- …so a line of such members has no match… -/
theorem captures_memberTail {es : List (List Char × List Char)}
    (hes : ∀ e ∈ es, Plain e.1 ∧ e.1 ≠ "trace_id".toList ∧ Inert e.2)
    (rest : List (List Char × List Char)) :
    captures (memberTail (es ++ rest)) = captures (memberTail rest) := by
  induction es with
  | nil => rfl
  | cons e es ih =>
    obtain ⟨hkey, hne, hvalue⟩ := hes e (by simp)
    show captures ([',', ' '] ++ (member e ++ memberTail (es ++ rest))) = _
    rw [captures_append (by decide), captures_member hkey hne hvalue,
      ih fun e' he' => hes e' (by simp [he'])]

/-- …and one with the trace id among them has one. -/
theorem captures_memberTail_trace {before after : List (List Char × List Char)}
    (hbefore : ∀ e ∈ before, Plain e.1 ∧ e.1 ≠ "trace_id".toList ∧ Inert e.2)
    (hafter : ∀ e ∈ after, Plain e.1 ∧ e.1 ≠ "trace_id".toList ∧ Inert e.2)
    {id : List Char} (hlen : id.length = 32) (hhex : ∀ c ∈ id, isHex c = true) (hid : Plain id) :
    captures (memberTail (before ++ ("trace_id".toList, quoted id) :: after)) = [id] := by
  obtain ⟨next, rest, htail, hcolon, ht⟩ := memberTail_eq after
  have hend : captures (memberTail after) = [] := by
    have := captures_memberTail hafter []
    rw [List.append_nil] at this
    exact this
  rw [captures_memberTail hbefore]
  show captures ([',', ' '] ++ (member ("trace_id".toList, quoted id) ++ memberTail after)) = _
  rw [captures_append (by decide), htail]
  have hmember : member ("trace_id".toList, quoted id) ++ next :: rest =
      quoted "trace_id".toList ++ ':' :: ' ' :: (quoted id ++ next :: rest) := by simp [member]
  rw [hmember, captures_trace hlen hhex hid rest hcolon ht, ← htail, hend]

end Grafana
end ObservabilityStack
