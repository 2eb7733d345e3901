import Mathlib.Algebra.Order.BigOperators.Group.List
import Mathlib.Algebra.Order.Group.Defs
import Mathlib.Algebra.Order.Monoid.Unbundled.Basic
import Mathlib.Tactic.Common

/-!
# Spans laid end to end

A list of lengths, laid end to end from some point on, cuts what follows that point into
half-open spans. `locate` is the scan that looks for the span a point is in: it adds the lengths
up and stops at the first sum that exceeds the point. It finds the span by its bounds
(`locate_eq_some_iff`), it finds one up to the end of the last (`locate_eq_none_iff`), and later
points are in later spans (`locate_mono`).

The spans are half-open, so that a point where two of them meet is in the later one, and the points
before the first and behind the last are in none. Spans of length 0 are allowed, and no point is in
one. Whether a point that is found by the scan is also in the span it was found for is a matter of
the bounds, which add the same lengths up; `offset` is that sum, and it is a separate function
since the scan never computes it as such.
-/

set_option autoImplicit false

namespace ObservabilityStack
namespace Spans

variable {K : Type*} [AddCommGroup K] [LinearOrder K]

/-- The number of the span that `t` is in, if the first one begins at `b`. -/
def locate (t : K) : K → List K → Option ℕ
  | _, [] => none
  | b, d :: ds => if t < b + d then some 0 else (locate t (b + d) ds).map (· + 1)

/-- Where the span number `i` begins, if the first one begins at 0. -/
def offset (ds : List K) (i : ℕ) : K := (ds.take i).sum

variable {t t' b d : K} {ds : List K} {i j : ℕ}

omit [LinearOrder K] in
@[simp] theorem offset_zero : offset ds 0 = 0 := rfl

omit [LinearOrder K] in
@[simp] theorem offset_cons_succ : offset (d :: ds) (i + 1) = d + offset ds i := by
  simp [offset]

variable [IsOrderedAddMonoid K]

theorem offset_nonneg (hds : ∀ d ∈ ds, 0 ≤ d) : 0 ≤ offset ds i :=
  List.sum_nonneg fun d hd => hds d (List.mem_of_mem_take hd)

/-- **A point is in the span whose bounds it is between.** -/
theorem locate_eq_some_iff (hds : ∀ d ∈ ds, 0 ≤ d) (hb : b ≤ t) :
    locate t b ds = some i ↔
      i < ds.length ∧ b + offset ds i ≤ t ∧ t < b + offset ds (i + 1) := by
  induction ds generalizing b i with
  | nil => simp [locate]
  | cons d ds ih =>
    have hrest : ∀ d ∈ ds, 0 ≤ d := fun d hd => hds d (List.mem_cons_of_mem _ hd)
    rw [locate]
    split
    · rename_i hlt
      cases i with
      | zero => simp [hb, hlt]
      | succ i =>
        -- The spans after the first begin at its end, or later.
        have hpast : ¬ b + offset (d :: ds) (i + 1) ≤ t := by
          rw [offset_cons_succ, ← add_assoc, not_le]
          exact hlt.trans_le (le_add_of_nonneg_right (offset_nonneg hrest))
        exact iff_of_false (by simp) fun h => hpast h.2.1
    · rename_i hge
      rw [not_lt] at hge
      cases i with
      | zero => simp [hge]
      | succ i =>
        rw [Option.map_eq_some_iff]
        simp only [Nat.add_right_cancel_iff, exists_eq_right, ih hrest hge, List.length_cons,
          Nat.add_lt_add_iff_right, offset_cons_succ, ← add_assoc]

theorem locate_eq_none_iff (hds : ∀ d ∈ ds, 0 ≤ d) (hb : b ≤ t) :
    locate t b ds = none ↔ b + ds.sum ≤ t := by
  induction ds generalizing b with
  | nil => simpa [locate] using hb
  | cons d ds ih =>
    have hrest : ∀ d ∈ ds, 0 ≤ d := fun d hd => hds d (List.mem_cons_of_mem _ hd)
    rw [locate, List.sum_cons, ← add_assoc]
    split
    · rename_i hlt
      refine iff_of_false (by simp) (not_le.mpr ?_)
      exact hlt.trans_le (le_add_of_nonneg_right (List.sum_nonneg hrest))
    · rename_i hge
      rw [Option.map_eq_none_iff, ih hrest (not_lt.mp hge)]

omit [IsOrderedAddMonoid K] in
theorem locate_mono (hle : t ≤ t') (hi : locate t b ds = some i)
    (hj : locate t' b ds = some j) : i ≤ j := by
  induction ds generalizing b i j with
  | nil => cases hi
  | cons d ds ih =>
    rw [locate] at hi hj
    split at hi
    · cases hi
      exact Nat.zero_le j
    · rename_i hge
      rw [if_neg fun hlt => hge (hle.trans_lt hlt)] at hj
      obtain ⟨i', hi', rfl⟩ := Option.map_eq_some_iff.mp hi
      obtain ⟨j', hj', rfl⟩ := Option.map_eq_some_iff.mp hj
      exact Nat.succ_le_succ (ih hi' hj')

end Spans
end ObservabilityStack
