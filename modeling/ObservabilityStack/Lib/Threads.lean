import Mathlib.Data.List.Basic
import Mathlib.Algebra.BigOperators.Group.List.Basic
import Mathlib.Algebra.GroupWithZero.Nat
import Mathlib.Data.List.Induction
import Mathlib.Data.List.NodupEquivFin

/-!
# A pool of threads, one of which moves

The threads of a pool are a list of local states, and a step replaces the entry of the thread
that moved. Whatever is counted over the pool changes by the difference between that thread's
old and new contribution, and nothing else does. The equations are stated additively, so that
they hold in `ℕ`.

The number of threads is not fixed, and their numbers are places in the list: a thread that comes
is appended, so that the numbers of the others stay what they were (`getElem?_snoc`). None is ever
removed. A thread that is done stays where it is, in a state that has no steps.

What is proved here is bookkeeping, and it is proved once. An invariant about a pool is nearly
always a sum over it that some step keeps, and a proof of such an invariant should be about the
thread that moved.
-/

set_option autoImplicit false

namespace ObservabilityStack
namespace Threads

variable {τ : Type*} {ts : List τ} {i j : ℕ} {a b : τ}

/-- The sum of any per-thread weight. -/
theorem sum_set (f : τ → ℕ) (h : ts[i]? = some a) :
    ((ts.set i b).map f).sum + f a = (ts.map f).sum + f b := by
  induction ts generalizing i with
  | nil => simp at h
  | cons t ts ih =>
    cases i with
    | zero =>
      simp only [List.getElem?_cons_zero, Option.some.injEq] at h
      subst h
      simp only [List.set_cons_zero, List.map_cons, List.sum_cons]
      omega
    | succ i =>
      have hi := ih (by simpa using h)
      simp only [List.set_cons_succ, List.map_cons, List.sum_cons]
      omega

/-- The number of threads in some kind of state. -/
theorem countP_set (p : τ → Bool) (h : ts[i]? = some a) :
    (ts.set i b).countP p + (p a).toNat = ts.countP p + (p b).toNat := by
  have hsum : ∀ us : List τ, us.countP p = (us.map fun t => (p t).toNat).sum := by
    intro us
    induction us with
    | nil => rfl
    | cons u us ih => cases hp : p u <;> simp [ih, hp, add_comm]
  rw [hsum, hsum]
  exact sum_set (fun t => (p t).toNat) h

theorem getElem?_set (h : ts[i]? = some a) :
    (ts.set i b)[j]? = if j = i then some b else ts[j]? := by
  have hi : i < ts.length := (List.getElem?_eq_some_iff.mp h).1
  rw [List.getElem?_set]
  by_cases hij : j = i
  · subst hij; simp [hi]
  · simp [hij, Ne.symm hij]

/-- A move that a view of the threads does not show. -/
theorem map_set_of_eq {υ : Type*} {f : τ → υ} (h : ts[i]? = some a) (hf : f b = f a) :
    (ts.set i b).map f = ts.map f := by
  refine List.ext_getElem? fun j => ?_
  rw [List.getElem?_map, List.getElem?_map, getElem?_set h]
  split
  · rename_i hji
    rw [hji, h, Option.map_some, Option.map_some, hf]
  · rfl

theorem getElem?_snoc (h : (ts ++ [a])[j]? = some b) :
    ts[j]? = some b ∨ j = ts.length ∧ b = a := by
  rcases Nat.lt_or_ge j ts.length with hlt | hge
  · rw [List.getElem?_append_left hlt] at h
    exact Or.inl h
  · rw [List.getElem?_append_right hge, List.getElem?_singleton] at h
    split at h
    · rename_i hzero
      cases h
      exact Or.inr ⟨Nat.le_antisymm (Nat.sub_eq_zero_iff_le.mp hzero) hge, rfl⟩
    · cases h

/-- What occurs once stands in one place. -/
theorem index_unique [DecidableEq τ] (honce : ts.count a ≤ 1) (hi : ts[i]? = some a)
    (hj : ts[j]? = some a) : i = j := by
  have hdup : ∀ {m n : ℕ}, m < n → ts[m]? = some a → ts[n]? = some a → 2 ≤ ts.count a := by
    intro m n hlt hm hn
    obtain ⟨hm', hma⟩ := List.getElem?_eq_some_iff.mp hm
    obtain ⟨hn', hna⟩ := List.getElem?_eq_some_iff.mp hn
    rw [← List.duplicate_iff_two_le_count, List.duplicate_iff_exists_distinct_get]
    exact ⟨⟨m, hm'⟩, ⟨n, hn'⟩, hlt, hma.symm, hna.symm⟩
  rcases Nat.lt_trichotomy i j with hlt | heq | hgt
  · exact absurd (hdup hlt hi hj) (by omega)
  · exact heq
  · exact absurd (hdup hgt hj hi) (by omega)

/-- A count over the threads is one over their numbers. -/
theorem countP_range (p : τ → Bool) :
    (List.range ts.length).countP (fun i => ts[i]?.any p) = ts.countP p := by
  induction ts using List.reverseRecOn with
  | nil => rfl
  | append_singleton ts t ih =>
    rw [List.length_append, List.length_singleton, List.range_succ, List.countP_append,
      List.countP_append, List.countP_singleton, List.countP_singleton, ← ih]
    congr 1
    · refine List.countP_congr fun i hi => ?_
      rw [List.getElem?_append_left (List.mem_range.mp hi)]
    · rw [List.getElem?_concat_length, Option.any_some]

/-- Of a count over the first numbers, some of them are counted apart. -/
theorem countP_range_split {is : List ℕ} {n : ℕ} (hnodup : is.Nodup) (hlt : ∀ i ∈ is, i < n)
    (p : ℕ → Bool) : (List.range n).countP p =
      is.countP p + (List.range n).countP fun i => i ∉ is ∧ p i := by
  have hperm : ((List.range n).filter fun i => i ∈ is).Perm is := by
    rw [List.perm_ext_iff_of_nodup (List.nodup_range.filter _) hnodup]
    intro i
    rw [List.mem_filter, List.mem_range, decide_eq_true_iff]
    exact and_iff_right_of_imp (hlt i)
  rw [List.countP_eq_countP_filter_add _ p fun i => i ∈ is, hperm.countP_eq, List.countP_filter]
  congr 1
  refine List.countP_congr fun i _ => ?_
  simp [and_comm]

/-- When not all threads are of a kind, one of them is not. -/
theorem exists_of_countP_lt {p : τ → Bool} (h : ts.countP p < ts.length) :
    ∃ (i : ℕ) (a : τ), ts[i]? = some a ∧ p a = false := by
  by_contra hno
  push Not at hno
  have hall : ∀ a ∈ ts, p a = true := by
    intro a ha
    obtain ⟨i, hi⟩ := List.mem_iff_getElem?.mp ha
    simpa using hno i a hi
  exact absurd (List.countP_eq_length.mpr hall) (Nat.ne_of_lt h)

end Threads
end ObservabilityStack
