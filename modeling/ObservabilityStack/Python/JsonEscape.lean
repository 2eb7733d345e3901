import ObservabilityStack.Python.Json

/-!
# Where quotes stand in a dumped string

`json.dumps` puts a string between two quotes and a backslash before every quote inside. So the
text of a string is over at the first quote that no backslash precedes. `prefix_escaped` is that
fact in the form a search needs: a word without quotes and backslashes, followed by a quote, only
occurs at the head of an escaped text as all of it.

It is needed because a stream of JSON lines is searched as text. The query language of the log
store finds a field with a regular expression, and nothing tells it that the field it found is one
of the record, and not part of a message that quotes another record. Here is why it is one of the
record after all: what would begin a field inside a string has a backslash in front of it.
-/

set_option autoImplicit false

namespace ObservabilityStack
namespace Python
namespace Json

/-- The characters of a string, escaped, without the quotes around them. -/
def escaped (s : List Char) : List Char := s.flatMap (escapeChar false)

/-- `json.dumps(s, ensure_ascii=False)`. -/
def quoted (s : List Char) : List Char := '"' :: (escaped s ++ ['"'])

theorem toList_escape (s : String) : (escape false s).toList = quoted s.toList := by
  simp [escape, quoted, escaped]

@[simp] theorem escaped_nil : escaped [] = [] := rfl

@[simp] theorem escaped_cons (c : Char) (s : List Char) :
    escaped (c :: s) = escapeChar false c ++ escaped s := by
  simp [escaped]

theorem quote_notMem_hex (width n : ℕ) : '"' ∉ hex width n := by
  have hdigits : ∀ n, '"' ∉ Nat.toDigits 16 n := by
    intro n
    induction n using Nat.strongRecOn with
    | ind n ih =>
      have hchar : ∀ d < 16, '"' ≠ Nat.digitChar d := by decide
      by_cases hn : n < 16
      · rw [Nat.toDigits_of_lt_base hn]
        rw [List.mem_singleton]
        exact hchar n hn
      · rw [Nat.toDigits_of_base_le (by decide) (by omega)]
        simp only [List.mem_append, List.mem_singleton, not_or]
        exact ⟨ih (n / 16) (by omega), hchar _ (Nat.mod_lt _ (by decide))⟩
  unfold hex
  simp only [List.mem_append, not_or]
  refine ⟨?_, hdigits n⟩
  intro h
  exact absurd (List.eq_of_mem_replicate h) (by decide)

/-- A character is written as itself, or is a quote, or is written with a backslash first. -/
theorem escapeChar_cases (c : Char) :
    (escapeChar false c = [c] ∧ c ≠ '"' ∧ c ≠ '\\') ∨
      (c = '"' ∧ escapeChar false c = ['\\', '"']) ∨
      ∃ rest, escapeChar false c = '\\' :: rest ∧ '"' ∉ rest := by
  by_cases hquote : c = '"'
  · exact Or.inr (Or.inl ⟨hquote, by rw [hquote]; rfl⟩)
  by_cases hslash : c = '\\'
  · exact Or.inr (Or.inr ⟨['\\'], by rw [hslash]; rfl, by decide⟩)
  have hne : ¬ (c = '"' ∨ c = '\\') := fun h => h.elim hquote hslash
  unfold escapeChar
  rw [if_neg hne]
  split
  · exact Or.inr (Or.inr ⟨_, rfl, by decide⟩)
  split
  · exact Or.inr (Or.inr ⟨_, rfl, by decide⟩)
  split
  · exact Or.inr (Or.inr ⟨_, rfl, by decide⟩)
  split
  · exact Or.inr (Or.inr ⟨_, rfl, by decide⟩)
  split
  · exact Or.inr (Or.inr ⟨_, rfl, by decide⟩)
  split
  · refine Or.inr (Or.inr ⟨_, rfl, ?_⟩)
    simp [quote_notMem_hex]
  · exact Or.inl ⟨if_pos (Or.inr rfl), hquote, hslash⟩

/-- A word without quotes and backslashes, and a quote after it, is at the head of an escaped text
    only as the whole of it. -/
theorem prefix_escaped {word s rest : List Char} {next : Char}
    (hword : ∀ c ∈ word, c ≠ '"' ∧ c ≠ '\\')
    (h : word ++ ['"', next] <+: escaped s ++ '"' :: rest) :
    escaped s = word ∧ [next] <+: rest := by
  induction s generalizing word with
  | nil =>
    cases word with
    | nil =>
      refine ⟨rfl, ?_⟩
      simpa using h
    | cons d word =>
      rw [escaped_nil, List.nil_append, List.cons_append, List.cons_prefix_cons] at h
      exact absurd h.1 (hword d (by simp)).1
  | cons c s ih =>
    rw [escaped_cons] at h ⊢
    -- A character that stands for itself is neither a quote nor a backslash, so the word goes on
    -- with it.
    rcases escapeChar_cases c with ⟨hc, hquote, hslash⟩ | hescape
    · rw [hc, List.singleton_append] at h ⊢
      cases word with
      | nil =>
        rw [List.nil_append, List.cons_append, List.cons_prefix_cons] at h
        exact absurd h.1.symm hquote
      | cons d word =>
        rw [List.cons_append, List.cons_append, List.cons_prefix_cons] at h
        obtain ⟨hs, hnext⟩ := ih (fun x hx => hword x (by simp [hx])) h.2
        exact ⟨by rw [hs, h.1], hnext⟩
    · -- An escape starts with a backslash, and the word has none.
      obtain ⟨rest', hc⟩ : ∃ rest', escapeChar false c = '\\' :: rest' := by
        rcases hescape with ⟨_, hc⟩ | ⟨rest', hc, _⟩
        · exact ⟨_, hc⟩
        · exact ⟨_, hc⟩
      rw [hc] at h
      cases word with
      | nil =>
        rw [List.nil_append, List.cons_append, List.cons_append, List.cons_prefix_cons] at h
        exact absurd h.1 (by decide)
      | cons d word =>
        rw [List.cons_append, List.cons_append, List.cons_append, List.cons_prefix_cons] at h
        exact absurd h.1 (hword d (by simp)).2

end Json
end Python
end ObservabilityStack
