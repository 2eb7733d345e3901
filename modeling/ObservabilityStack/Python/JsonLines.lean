import ObservabilityStack.Python.JsonRoundTrip

/-!
# A stream of JSON lines

`json.dumps` writes no control character: a string escapes its own, and nothing else has any. So a
value takes one line, whatever it holds, and a stream of values with a newline behind each is taken
apart at the newlines.

This is the layer between a service that logs and whatever reads its output. The service writes
texts to a stream that knows no records; the reader sees one text, and has to find the records
again. That it can is a property of `json.dumps` and of nothing else in between: the reader cuts at
newlines without looking at quotes, so one raw newline inside a string, and every record from there
on would be cut in two.

The two halves are used one after the other. `printed_dumps` says of one value that its text has no
character below the space, by induction on the value, with the round trip's description of numbers
and containers for the cases. `splitLines_stream` says of any texts without newlines that the
stream of them is cut where they were joined, and leaves an empty text behind the last newline,
which a reader has to skip.

What is left out is the encoding: the stream is one of characters, not of bytes. Neither is it said
what a reader makes of a line. `loads_dumps` does that, for a line of its own.
-/

set_option autoImplicit false

namespace ObservabilityStack
namespace Python
namespace Json

/-- A character that is no control character. -/
def Printed (c : Char) : Prop := 0x20 ≤ c.toNat

instance : DecidablePred Printed := fun c => inferInstanceAs (Decidable (0x20 ≤ c.toNat))

theorem printed_of_all {word : List Char} (h : (word.all fun c => decide (Printed c)) = true) :
    ∀ c ∈ word, Printed c := fun c hc => of_decide_eq_true (List.all_eq_true.mp h c hc)

/-- What holds of the sixteen digits holds of every number in hexadecimal. -/
theorem forall_mem_hex {P : Char → Prop} (h : ∀ d < 16, P (Nat.digitChar d)) {width n : ℕ} :
    ∀ c ∈ hex width n, P c := by
  have hdigits : ∀ n, ∀ c ∈ Nat.toDigits 16 n, P c := by
    intro n
    induction n using Nat.strongRecOn with
    | ind n ih =>
      by_cases hn : n < 16
      · rw [Nat.toDigits_of_lt_base hn]
        exact List.forall_mem_singleton.mpr (h n hn)
      · rw [Nat.toDigits_of_base_le (by decide) (by omega)]
        intro c hc
        rcases List.mem_append.mp hc with hc | hc
        · exact ih (n / 16) (by omega) c hc
        · rw [List.mem_singleton.mp hc]
          exact h _ (Nat.mod_lt _ (by decide))
  intro c hc
  rcases List.mem_append.mp hc with hc | hc
  · rw [List.eq_of_mem_replicate hc]
    exact h 0 (by decide)
  · exact hdigits n c hc

theorem printed_escapeUnit (n : ℕ) : ∀ c ∈ escapeUnit n, Printed c := by
  have hhex : ∀ c ∈ hex 4 n, Printed c := forall_mem_hex (by decide)
  have hmark : ∀ c ∈ ['\\', 'u'], Printed c := printed_of_all (by decide)
  intro c hc
  rcases List.mem_append.mp hc with hc | hc
  · exact hmark c hc
  · exact hhex c hc

/-- Every character below the space is escaped, with or without `ensure_ascii`, and an escape is a
    backslash, letters and digits. -/
theorem printed_escapeChar (ensureAscii : Bool) (c : Char) :
    ∀ d ∈ escapeChar ensureAscii c, Printed d := by
  have hpair : ∀ e : Char, Printed e → ∀ d ∈ ['\\', e], Printed d := by
    intro e he d hd
    rcases List.mem_cons.mp hd with rfl | hd
    · decide
    · rwa [List.mem_singleton.mp hd]
  -- One case for each branch: the short escapes, then the control characters, then what is left.
  unfold escapeChar
  split
  · rename_i h
    exact hpair c (by rcases h with rfl | rfl <;> decide)
  split
  · exact hpair 'n' (by decide)
  split
  · exact hpair 'r' (by decide)
  split
  · exact hpair 't' (by decide)
  split
  · exact hpair 'f' (by decide)
  split
  · exact hpair 'b' (by decide)
  split
  · exact printed_escapeUnit c.toNat
  rename_i hcontrol
  split
  · exact List.forall_mem_singleton.mpr (not_lt.mp hcontrol)
  split
  · exact printed_escapeUnit c.toNat
  · intro d hd
    exact (List.mem_append.mp hd).elim (printed_escapeUnit _ d) (printed_escapeUnit _ d)

theorem printed_escape (ensureAscii : Bool) (s : String) :
    ∀ c ∈ (escape ensureAscii s).toList, Printed c := by
  rw [toList_escape_eq]
  intro c hc
  simp only [List.mem_cons, List.mem_append, List.mem_flatMap, List.not_mem_nil, or_false] at hc
  rcases hc with rfl | ⟨d, -, hc⟩ | rfl
  · decide
  · exact printed_escapeChar ensureAscii d c hc
  · decide

/-- Commas and blanks between the texts add no control characters. -/
theorem printed_joined {texts : List (List Char)} (h : ∀ t ∈ texts, ∀ c ∈ t, Printed c) :
    ∀ c ∈ Scans.joined texts, Printed c := by
  induction texts with
  | nil => exact fun c hc => absurd hc (by simp [Scans.joined])
  | cons t ts ih =>
    cases ts with
    | nil => simpa [Scans.joined] using h t List.mem_cons_self
    | cons t' ts =>
      rw [Scans.joined_cons_cons]
      intro c hc
      rcases List.mem_append.mp hc with hc | hc
      · exact h t List.mem_cons_self c hc
      rcases List.mem_cons.mp hc with rfl | hc
      · decide
      rcases List.mem_cons.mp hc with rfl | hc
      · decide
      · exact ih (fun t ht => h t (List.mem_cons_of_mem _ ht)) c hc

theorem printed_digit {c : Char} (h : c.isDigit = true) : Printed c := by
  have hrange : '0'.toNat ≤ c.toNat := by
    simp only [Char.isDigit, Bool.and_eq_true, decide_eq_true_eq] at h
    exact h.1
  exact le_trans (by decide) hrange

/-- A number is made of digits, signs, a point and an exponent mark. -/
theorem NumberText.printed (t : NumberText) : ∀ c ∈ t.chars, Printed c := by
  have hdigits : ∀ {ds : List Char}, Digits ds → ∀ c ∈ ds, Printed c :=
    fun h c hc => printed_digit (h.2 c hc)
  intro c hc
  simp only [chars, List.mem_append] at hc
  rcases hc with ((hc | hc) | hc) | hc
  · split at hc
    · rw [List.mem_singleton.mp hc]
      decide
    · exact absurd hc List.not_mem_nil
  · exact hdigits t.int_digits c hc
  · rcases t.fraction_form with hnone | ⟨ds, hfraction, hds⟩
    · exact absurd hc (by simp [hnone])
    · rw [hfraction] at hc
      rcases List.mem_cons.mp hc with rfl | hc
      · decide
      · exact hdigits hds c hc
  · rcases t.exponent_form with hnone | ⟨sign, ds, hexponent, hsign, hds⟩
    · exact absurd hc (by simp [hnone])
    · rw [hexponent] at hc
      rcases List.mem_cons.mp hc with rfl | hc
      · decide
      rcases List.mem_append.mp hc with hc | hc
      · rcases hsign with rfl | rfl | rfl
        · exact absurd hc List.not_mem_nil
        · rw [List.mem_singleton.mp hc]
          decide
        · rw [List.mem_singleton.mp hc]
          decide
      · exact hdigits hds c hc

/-- **A dumped value has no control characters.** -/
theorem printed_dumps (ensureAscii : Bool) {reprFloat : String → String} {value : Json}
    (h : Readable reprFloat value) : ∀ c ∈ (dumps ensureAscii value).toList, Printed c := by
  have hword : ∀ word : String, (word.toList.all fun c => decide (Printed c)) = true →
      ∀ c ∈ word.toList, Printed c := fun _ => printed_of_all
  have hclose : ∀ {open_ close : Char} {text : List Char}, Printed open_ → Printed close →
      (∀ c ∈ text, Printed c) → ∀ c ∈ open_ :: (text ++ [close]), Printed c := by
    intro open_ close text ho hc htext c hmem
    rcases List.mem_cons.mp hmem with rfl | hmem
    · exact ho
    rcases List.mem_append.mp hmem with hmem | hmem
    · exact htext c hmem
    · rwa [List.mem_singleton.mp hmem]
  -- On the value, by how it can be read: the cases are the forms that `dumps` has a text for.
  induction h with
  | null => exact hword "null" (by decide)
  | bool b =>
    cases b
    · exact hword "false" (by decide)
    · exact hword "true" (by decide)
  | @int n _ =>
    show ∀ c ∈ (toString n).toList, Printed c
    rw [← NumberText.chars_ofInt]
    exact (NumberText.ofInt n).printed
  | @float text h =>
    show ∀ c ∈ (dumpsFloat text).toList, Printed c
    rcases h with ⟨t, hchars, hform, hrepr⟩ | rfl | rfl | rfl
    · rw [dumpsFloat_of_isFloat ⟨t, hchars, hform, hrepr⟩, ← hchars]
      exact t.printed
    · exact hword "NaN" (by decide)
    · exact hword "Infinity" (by decide)
    · exact hword "-Infinity" (by decide)
  | str s => exact printed_escape ensureAscii s
  | arr _ ih =>
    rw [toList_dumps_arr]
    refine hclose (by decide) (by decide) (printed_joined ?_)
    intro t ht
    obtain ⟨v, hv, rfl⟩ := List.mem_map.mp ht
    exact ih v hv
  | obj _ ih =>
    rw [toList_dumps_obj]
    refine hclose (by decide) (by decide) (printed_joined ?_)
    intro t ht c hc
    obtain ⟨p, hp, rfl⟩ := List.mem_map.mp ht
    rcases List.mem_append.mp hc with hc | hc
    · exact printed_escape ensureAscii p.1 c hc
    rcases List.mem_cons.mp hc with rfl | hc
    · decide
    rcases List.mem_cons.mp hc with rfl | hc
    · decide
    · exact ih p (mem_of_mem_members hp) c hc

/-- What a handler of `logging` writes: every line with a newline behind it. -/
def stream (lines : List String) : String :=
  String.ofList (lines.flatMap fun line => line.toList ++ ['\n'])

/-- **Lines without newlines are taken apart where they were put together.** -/
theorem splitLines_stream {lines : List String} (h : ∀ line ∈ lines, '\n' ∉ line.toList) :
    splitLines (stream lines) = lines ++ [""] := by
  unfold splitLines stream
  rw [String.toList_ofList]
  induction lines with
  | nil => rfl
  | cons line lines ih =>
    have hline := h line List.mem_cons_self
    rw [List.flatMap_cons, List.append_assoc, List.singleton_append,
      List.splitOn_append_cons_self_of_not_mem hline, List.map_cons,
      ih fun l hl => h l (List.mem_cons_of_mem _ hl), String.ofList_toList]
    rfl

end Json
end Python
end ObservabilityStack
