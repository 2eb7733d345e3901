import Mathlib.Data.List.Basic

/-!
# Lines and words of a stream

A reader takes a stream apart from the front: a *line* runs up to and including its terminator,
or up to a limit, and a *word* is a maximal run between separators. Each reader comes with the
lemma that a stream written in that shape is taken apart the way it was put together, with
whatever follows it untouched.

Each of the readers is partial in its own way, and the lemmas say what becomes of the rest. A line
that is too long fills the limit and leaves the remainder on the stream, where the next call finds
it: a reader that does not look will take it for a new line. A word that is too long for its column
swallows the next one. These are the two ways in which a stream that was written in good order is
read back in disorder, and for both there is an exact condition and not only an example.

Elements are of any type; separators and terminators are predicates or elements of it. Characters
and bytes are two instances.
-/

set_option autoImplicit false

namespace ObservabilityStack
namespace Lines

variable {α : Type*}

section Readline

variable [DecidableEq α] (stop : α)

/-- Up to and including the first `stop`, at most `limit` elements; and the rest. -/
def readline (limit : ℕ) : List α → List α × List α
  | [] => ([], [])
  | x :: xs =>
      if limit = 0 then ([], x :: xs)
      else if x = stop then ([x], xs)
      else
        let r := readline (limit - 1) xs
        (x :: r.1, r.2)

/-- A terminated line within the limit is read whole. -/
theorem readline_line {limit : ℕ} {xs rest : List α} (hstop : stop ∉ xs)
    (hlimit : xs.length < limit) :
    readline stop limit (xs ++ stop :: rest) = (xs ++ [stop], rest) := by
  induction xs generalizing limit with
  | nil =>
    have hpos : limit ≠ 0 := Nat.ne_of_gt hlimit
    rw [List.nil_append, readline, if_neg hpos, if_pos rfl]
    rfl
  | cons x xs ih =>
    simp only [List.mem_cons, not_or] at hstop
    rw [List.length_cons] at hlimit
    rw [List.cons_append, readline, if_neg (by omega), if_neg (Ne.symm hstop.1),
      ih hstop.2 (by omega)]
    rfl

/-- A line that is longer fills the limit. -/
theorem readline_long {limit : ℕ} {xs rest : List α} (hstop : stop ∉ xs)
    (hlimit : limit ≤ xs.length) : (readline stop limit (xs ++ rest)).1.length = limit := by
  induction xs generalizing limit with
  | nil =>
    have hzero : limit = 0 := Nat.le_zero.mp hlimit
    subst hzero
    cases rest <;> rfl
  | cons x xs ih =>
    simp only [List.mem_cons, not_or] at hstop
    rw [List.length_cons] at hlimit
    rw [List.cons_append, readline]
    by_cases hzero : limit = 0
    · rw [if_pos hzero, hzero]
      rfl
    · rw [if_neg hzero, if_neg (Ne.symm hstop.1)]
      show (readline stop (limit - 1) (xs ++ rest)).1.length + 1 = limit
      rw [ih hstop.2 (by omega)]
      omega

/-- One that does not fit is seen not to fit by reading one element more. -/
theorem readline_exceeds {limit : ℕ} {xs rest : List α} (hstop : stop ∉ xs)
    (hlimit : limit < (xs ++ [stop]).length) :
    limit < (readline stop (limit + 1) (xs ++ stop :: rest)).1.length := by
  by_cases hfit : xs.length < limit + 1
  · rwa [readline_line stop hstop hfit]
  · rw [readline_long stop hstop (by omega)]
    exact Nat.lt_succ_self limit

end Readline

section Words

variable (sep : α → Bool)

/-- The non-empty runs between separators. -/
def words (xs : List α) : List (List α) := (xs.splitOnP sep).filter (· ≠ [])

theorem words_cons {w xs : List α} {s : α} (hw : w ≠ []) (hsep : ∀ x ∈ w, sep x = false)
    (hs : sep s = true) : words sep (w ++ s :: xs) = w :: words sep xs := by
  unfold words
  rw [List.splitOnP_append_cons_of_forall_mem hsep s hs,
    List.filter_cons_of_pos (by simpa using hw)]

theorem words_single {w : List α} (hw : w ≠ []) (hsep : ∀ x ∈ w, sep x = false) :
    words sep w = [w] := by
  unfold words
  rw [List.splitOnP_eq_singleton hsep, List.filter_cons_of_pos (by simpa using hw)]
  rfl

/-- A separator in front is not seen. -/
theorem words_sep_cons {s : α} (hs : sep s = true) (xs : List α) :
    words sep (s :: xs) = words sep xs := by
  have hnil : ∀ x ∈ ([] : List α), sep x = false := by simp
  have hsplit := List.splitOnP_append_cons_of_forall_mem hnil s hs xs
  rw [List.nil_append] at hsplit
  unfold words
  rw [hsplit]
  rfl

theorem words_replicate_append {s : α} (hs : sep s = true) (n : ℕ) (xs : List α) :
    words sep (List.replicate n s ++ xs) = words sep xs := by
  induction n with
  | zero => rfl
  | succ n ih =>
    rw [List.replicate_succ, List.cons_append, words_sep_cons sep hs]
    exact ih

end Words

/-! ## Padded columns

A row of a table is its cells, each padded with blanks to the width of its column, and a last
field of any length. A cell that fills its column runs into what follows it. -/

section Columns

/-- A run that is not empty and holds no separator. -/
def IsWord (sep : α → Bool) (w : List α) : Prop := w ≠ [] ∧ ∀ x ∈ w, sep x = false

instance [DecidableEq α] (sep : α → Bool) (w : List α) : Decidable (IsWord sep w) :=
  inferInstanceAs (Decidable (_ ∧ _))

variable (blank : α)

/-- `s.ljust(width)`. -/
def pad (width : ℕ) (xs : List α) : List α := xs ++ List.replicate (width - xs.length) blank

/-- The cells with their widths, and the last field. -/
def columns : List (ℕ × List α) → List α → List α
  | [], last => last
  | cell :: cells, last => pad blank cell.1 cell.2 ++ columns cells last

/-- The cell is shorter than its column. -/
def narrow (cell : ℕ × List α) : Bool := cell.2.length < cell.1

variable {sep : α → Bool} {blank}

/-- What a row consists of. -/
theorem forall_mem_columns {p : α → Prop} {last : List α} {cells : List (ℕ × List α)}
    (hblank : p blank) (hcells : ∀ cell ∈ cells, ∀ x ∈ cell.2, p x) (hlast : ∀ x ∈ last, p x) :
    ∀ x ∈ columns blank cells last, p x := by
  induction cells with
  | nil => exact hlast
  | cons cell cells ih =>
    obtain ⟨hcell, hrest⟩ := List.forall_mem_cons.mp hcells
    intro x hx
    rw [columns, pad, List.append_assoc] at hx
    rcases List.mem_append.mp hx with hx | hx
    · exact hcell x hx
    · rcases List.mem_append.mp hx with hx | hx
      · rw [List.eq_of_mem_replicate hx]
        exact hblank
      · exact ih hrest x hx

variable (hblank : sep blank = true)

include hblank

/-- What stands before a narrow cell is one word with it, and a blank ends the word. -/
theorem words_append_narrow {u : List α} {cell : ℕ × List α} (hu : ∀ x ∈ u, sep x = false)
    (hcell : IsWord sep cell.2) (hnarrow : narrow cell = true) (xs : List α) :
    words sep (u ++ (pad blank cell.1 cell.2 ++ xs)) = (u ++ cell.2) :: words sep xs := by
  obtain ⟨n, hn⟩ : ∃ n, cell.1 - cell.2.length = n + 1 :=
    Nat.exists_eq_add_one.mpr (Nat.sub_pos_of_lt (of_decide_eq_true hnarrow))
  have hword : ∀ x ∈ u ++ cell.2, sep x = false := by
    intro x hx
    rcases List.mem_append.mp hx with hx | hx
    · exact hu x hx
    · exact hcell.2 x hx
  have hsplit : u ++ (pad blank cell.1 cell.2 ++ xs) =
      (u ++ cell.2) ++ blank :: (List.replicate n blank ++ xs) := by
    unfold pad
    rw [hn, List.replicate_succ]
    simp
  rw [hsplit, words_cons sep (by simp [hcell.1]) hword hblank,
    words_replicate_append sep hblank]

/-- A row has one word for each narrow cell, and one for the last field. -/
theorem length_words_columns {u last : List α} {cells : List (ℕ × List α)}
    (hu : ∀ x ∈ u, sep x = false) (hcells : ∀ cell ∈ cells, IsWord sep cell.2)
    (hlast : IsWord sep last) :
    (words sep (u ++ columns blank cells last)).length = cells.countP narrow + 1 := by
  induction cells generalizing u with
  | nil =>
    have hword : ∀ x ∈ u ++ last, sep x = false := by
      intro x hx
      rcases List.mem_append.mp hx with hx | hx
      · exact hu x hx
      · exact hlast.2 x hx
    rw [columns, words_single sep (by simp [hlast.1]) hword]
    rfl
  | cons cell cells ih =>
    obtain ⟨hcell, hrest⟩ := List.forall_mem_cons.mp hcells
    rw [columns]
    by_cases hnarrow : narrow cell = true
    · rw [words_append_narrow hblank hu hcell hnarrow, List.length_cons,
        List.countP_cons_of_pos hnarrow, ← ih (u := []) (by simp) hrest, List.nil_append]
    · -- A full cell has no blank after it, and is the start of a longer word.
      have hfull : pad blank cell.1 cell.2 = cell.2 := by
        have hle : cell.1 - cell.2.length = 0 := by
          simpa [narrow, Nat.sub_eq_zero_iff_le] using hnarrow
        unfold pad
        rw [hle, List.replicate_zero, List.append_nil]
      rw [hfull, ← List.append_assoc, List.countP_cons_of_neg hnarrow]
      refine ih ?_ hrest
      intro x hx
      rcases List.mem_append.mp hx with hx | hx
      · exact hu x hx
      · exact hcell.2 x hx

/-- **A row is read back exactly when all of its cells are narrow.** -/
theorem words_columns_iff {last : List α} {cells : List (ℕ × List α)}
    (hcells : ∀ cell ∈ cells, IsWord sep cell.2) (hlast : IsWord sep last) :
    words sep (columns blank cells last) = cells.map Prod.snd ++ [last] ↔
      ∀ cell ∈ cells, narrow cell = true := by
  constructor
  · intro h
    have hlength := length_words_columns hblank (u := []) (by simp) hcells hlast
    rw [List.nil_append, h] at hlength
    apply List.countP_eq_length.mp
    simpa using hlength.symm
  · intro h
    induction cells with
    | nil => exact words_single sep hlast.1 hlast.2
    | cons cell cells ih =>
      obtain ⟨hcell, hrest⟩ := List.forall_mem_cons.mp hcells
      obtain ⟨hnarrow, hnarrows⟩ := List.forall_mem_cons.mp h
      have hsplit := words_append_narrow hblank (u := []) (by simp) hcell hnarrow
        (columns blank cells last)
      rw [List.nil_append, List.nil_append, ih hrest hnarrows] at hsplit
      exact hsplit

end Columns

/-! ## Stripping -/

/-- `s.rstrip(chars)`, for the elements `p` holds of. -/
def rstrip (p : α → Bool) (xs : List α) : List α := (xs.reverse.dropWhile p).reverse

theorem rstrip_append {p : α → Bool} {xs ys : List α} (hys : ∀ y ∈ ys, p y = true)
    (hxs : ∀ x ∈ xs, p x = false) : rstrip p (xs ++ ys) = xs := by
  unfold rstrip
  rw [List.reverse_append, List.dropWhile_append_of_pos (by
    intro y hy
    exact hys y (List.mem_reverse.mp hy))]
  cases hrev : xs.reverse with
  | nil =>
    rw [List.reverse_eq_nil_iff.mp hrev]
    rfl
  | cons x rest =>
    have hx : x ∈ xs := List.mem_reverse.mp (hrev ▸ List.mem_cons_self)
    rw [List.dropWhile_cons_of_neg (by simp [hxs x hx]), ← hrev, List.reverse_reverse]

end Lines
end ObservabilityStack
