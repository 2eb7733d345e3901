import Mathlib.Algebra.BigOperators.Group.Finset.Piecewise
import Mathlib.Algebra.Order.BigOperators.Group.Finset
import Mathlib.Data.List.Basic
import Mathlib.Tactic.Linarith

/-!
# Counters that are sampled

A counter is sampled now and then, and its increase over a window is the last sample minus the
first. That counts everything but what came before the first sample. A counter that is not shown
until it is first incremented has no sample for the zero it started from, so the increments up
to its first appearance are lost (`increase_shown_iff`).

This is a fact about sampling, and not about any store of samples. A window that contains the zero
would count everything, and a counter that was created with a zero shows it; one that comes into
being with its first increment never does, and no window can make up for that. How much is lost is
exact: the value at the first look, if the counter was not there at the look before.

Extrapolation, which a monitoring system applies to such an increase, is not part of it. The
increase is the difference of two samples.
-/

set_option autoImplicit false

namespace ObservabilityStack
namespace Counter

/-- Last sample minus first; nothing, with fewer than two samples. -/
def increase (samples : List ℕ) : ℤ :=
  match samples.head?, samples.getLast? with
  | some first, some last => if 2 ≤ samples.length then (last : ℤ) - first else 0
  | _, _ => 0

/-- How a counter shows that comes into being at its first increment. -/
def shown (value : ℕ) : Option ℕ := if value = 0 then none else some value

@[simp] theorem shown_succ (value : ℕ) : shown (value + 1) = some (value + 1) :=
  if_neg (Nat.succ_ne_zero value)

/-- A counter that is not shown is at 0. -/
@[simp] theorem getD_shown (value : ℕ) : (shown value).getD 0 = value := by
  cases value with
  | zero => rfl
  | succ value => rw [shown_succ, Option.getD_some]

theorem increase_eq {samples : List ℕ} {first last : ℕ} (hf : samples.head? = some first)
    (hl : samples.getLast? = some last) : increase samples = last - first := by
  unfold increase
  rw [hf, hl]
  dsimp only
  split
  · rfl
  · rename_i hshort
    match samples with
    | [] => cases hf
    | [x] =>
      cases hf
      cases hl
      exact (sub_self _).symm
    | _ :: _ :: rest => exact absurd (by simp) hshort

section Shown

variable {c : ℕ → ℕ}

/-- The samples of `n + 1` looks at the counter. -/
def samples (c : ℕ → ℕ) (n : ℕ) : List ℕ := (List.range (n + 1)).filterMap fun k => shown (c k)

theorem head?_samples (n : ℕ) (h : 0 < c 0) : (samples c n).head? = some (c 0) := by
  have hshown : shown (c 0) = some (c 0) := if_neg (Nat.ne_of_gt h)
  unfold samples
  rw [List.range_succ_eq_map, List.filterMap_cons, hshown]
  rfl

theorem getLast?_samples (n : ℕ) (h : 0 < c n) : (samples c n).getLast? = some (c n) := by
  have hshown : shown (c n) = some (c n) := if_neg (Nat.ne_of_gt h)
  unfold samples
  rw [List.range_succ, List.filterMap_append]
  simp [hshown]

theorem pos_of_mem_samples {n x : ℕ} (h : x ∈ samples c n) : 0 < x := by
  obtain ⟨k, -, hk⟩ := List.mem_filterMap.mp h
  unfold shown at hk
  split at hk
  · cases hk
  · rename_i hne
    cases hk
    exact Nat.pos_of_ne_zero hne

theorem samples_eq_nil (hmono : Monotone c) {n : ℕ} (h : c n = 0) : samples c n = [] := by
  unfold samples
  rw [List.filterMap_eq_nil_iff]
  intro k hk
  have hle := hmono (Nat.le_of_lt_succ (List.mem_range.mp hk))
  exact if_pos (by omega)

/-- The increase over the looks is exact when the counter was there at the first of them, or is
    not there at the last. -/
theorem increase_shown_iff (hmono : Monotone c) (n : ℕ) :
    increase (samples c n) = (c n : ℤ) - c 0 ↔ 0 < c 0 ∨ c n = 0 := by
  rcases Nat.eq_zero_or_pos (c n) with hn | hn
  · have hle := hmono (Nat.zero_le n)
    have h0 : c 0 = 0 := by omega
    rw [samples_eq_nil hmono hn, hn, h0]
    exact iff_of_true rfl (Or.inr rfl)
  · rcases Nat.eq_zero_or_pos (c 0) with h0 | h0
    · refine iff_of_false ?_ (by omega)
      intro heq
      obtain ⟨first, hfirst⟩ : ∃ first, (samples c n).head? = some first := by
        cases hs : samples c n with
        | nil =>
          have hlast := getLast?_samples n hn
          rw [hs] at hlast
          cases hlast
        | cons x xs => exact ⟨x, rfl⟩
      have hpos := pos_of_mem_samples (List.mem_of_head? hfirst)
      rw [increase_eq hfirst (getLast?_samples n hn), h0] at heq
      omega
    · rw [increase_eq (head?_samples n h0) (getLast?_samples n hn)]
      exact iff_of_true rfl (Or.inl h0)

/-- It never exceeds the increments. -/
theorem increase_shown_le (hmono : Monotone c) (n : ℕ) :
    increase (samples c n) ≤ (c n : ℤ) - c 0 := by
  rcases Nat.eq_zero_or_pos (c n) with hn | hn
  · exact le_of_eq ((increase_shown_iff hmono n).mpr (Or.inr hn))
  · rcases Nat.eq_zero_or_pos (c 0) with h0 | h0
    · cases hs : samples c n with
      | nil =>
        rw [h0]
        show (0 : ℤ) ≤ _
        omega
      | cons x xs =>
        have hlast := getLast?_samples n hn
        rw [hs] at hlast
        rw [increase_eq rfl hlast, h0]
        omega
    · exact le_of_eq ((increase_shown_iff hmono n).mpr (Or.inl h0))

end Shown

/-! ## Many counters

A quantity is often counted by several counters that share its events out among them. Summing their
increases is then a double sum over keys and events, which `sum_countP` turns round. -/

/-- Events counted key by key, over the keys that occur among them. -/
theorem sum_countP {ε κ : Type*} [DecidableEq κ] (keys : Finset κ) (p : ε → Bool) (key : ε → κ)
    (events : List ε) :
    ∑ k ∈ keys, events.countP (fun e => p e && key e = k) =
      events.countP fun e => p e && key e ∈ keys := by
  induction events with
  | nil => simp
  | cons e events ih =>
    simp only [List.countP_cons, Finset.sum_add_distrib, ih]
    congr 1
    cases hp : p e with
    | false => simp
    | true => simp [Finset.sum_ite_eq]

end Counter
end ObservabilityStack
