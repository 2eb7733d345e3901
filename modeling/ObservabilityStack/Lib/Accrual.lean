import Mathlib.Algebra.Order.BigOperators.Group.List
import Mathlib.Tactic.Ring
import ObservabilityStack.Lib.Overlap
import ObservabilityStack.Lib.Spans

/-!
# What accrues at piecewise constant rates

A list of lengths and rates, laid end to end from `b` on: `accrued t b` is what has accrued by `t`.
It grows no faster than the highest rate (`accrued_sub_le`), and within a span at the rate of that
span (`accrued_sub_within`).

The sums are taken span by span because that is how such a thing is given: a schedule lists its
phases, and says nothing of what has accrued by a moment in the middle of one. Every result is
therefore about one span, by `elapsed`, and about the sum of them, by induction on the list with
the beginning of the next span as the running argument. The list is not asked to be non-empty, and
the rates not to be positive; what needs that says so.

Where two schedules are to be compared, they have the same spans and different rates.
`accrued_sub_le_sub` is about that case, and the bounds with the highest and the lowest rate are
instances of it.
-/

set_option autoImplicit false

namespace ObservabilityStack
namespace Accrual

open Overlap (elapsed)

variable {K : Type*} [Field K] [LinearOrder K]

/-- What has accrued by `t` of spans of some lengths and rates, the first of which begins at `b`. -/
def accrued (t : K) : K → List (K × K) → K
  | _, [] => 0
  | b, (d, rate) :: spans => rate * elapsed d (t - b) + accrued t (b + d) spans

variable [IsStrictOrderedRing K] {spans : List (K × K)} {b t u R : K}

omit [IsStrictOrderedRing K] in
theorem elapsed_mono (d : K) {x y : K} (h : x ≤ y) : elapsed d x ≤ elapsed d y :=
  max_le_max le_rfl (min_le_min_right d h)

/-- Two intervals laid end to end are one. -/
theorem elapsed_add {d e : K} (hd : 0 ≤ d) (he : 0 ≤ e) (x : K) :
    elapsed d x + elapsed e (x - d) = elapsed (d + e) x := by
  unfold elapsed
  grind

theorem elapsed_sub_le (d : K) {x y : K} (h : x ≤ y) : elapsed d y - elapsed d x ≤ y - x := by
  unfold elapsed
  grind

omit [IsStrictOrderedRing K] in
/-- Nothing accrues where all rates are 0. -/
theorem accrued_eq_zero (h : ∀ s ∈ spans, s.2 = 0) (b : K) : accrued t b spans = 0 := by
  induction spans generalizing b with
  | nil => rfl
  | cons s spans ih =>
    rw [accrued, h s List.mem_cons_self, zero_mul, zero_add]
    exact ih (fun s hs => h s (List.mem_cons_of_mem _ hs)) _

/-- At one rate all spans are one. -/
theorem accrued_uniform (hlength : ∀ s ∈ spans, 0 ≤ s.1) (h : ∀ s ∈ spans, s.2 = R) (b : K) :
    accrued t b spans = R * elapsed (spans.map Prod.fst).sum (t - b) := by
  induction spans generalizing b with
  | nil => simp [accrued, elapsed]
  | cons s spans ih =>
    have hrest : ∀ s ∈ spans, 0 ≤ s.1 := fun s hs => hlength s (List.mem_cons_of_mem _ hs)
    have hsum : 0 ≤ (spans.map Prod.fst).sum :=
      List.sum_nonneg fun d hd => by
        obtain ⟨s, hs, rfl⟩ := List.mem_map.mp hd
        exact hrest s hs
    rw [accrued, ih hrest fun s hs => h s (List.mem_cons_of_mem _ hs), h s List.mem_cons_self,
      ← mul_add, ← sub_sub, elapsed_add (hlength s List.mem_cons_self) hsum, List.map_cons,
      List.sum_cons]

/-- The spans are compared one by one. -/
theorem accrued_sub_le_sub {α : Type*} (length lower upper : α → K) {xs : List α}
    (h : ∀ x ∈ xs, lower x ≤ upper x) (htu : t ≤ u) (b : K) :
    accrued u b (xs.map fun x => (length x, lower x)) -
        accrued t b (xs.map fun x => (length x, lower x)) ≤
      accrued u b (xs.map fun x => (length x, upper x)) -
        accrued t b (xs.map fun x => (length x, upper x)) := by
  induction xs generalizing b with
  | nil => exact le_rfl
  | cons x xs ih =>
    have hrest := ih (fun x hx => h x (List.mem_cons_of_mem _ hx)) (b + length x)
    have hgrowth : 0 ≤ elapsed (length x) (u - b) - elapsed (length x) (t - b) :=
      sub_nonneg.mpr (elapsed_mono _ (sub_le_sub_right htu b))
    have hfirst := mul_le_mul_of_nonneg_right (h x List.mem_cons_self) hgrowth
    simp only [List.map_cons, accrued]
    linarith

/-- What accrues does not shrink. -/
theorem accrued_mono (h : ∀ s ∈ spans, 0 ≤ s.2) (b : K) :
    Monotone fun t => accrued t b spans := by
  intro t u htu
  show accrued t b spans ≤ accrued u b spans
  induction spans generalizing b with
  | nil => exact le_rfl
  | cons s spans ih =>
    have hrest := ih (fun s hs => h s (List.mem_cons_of_mem _ hs)) (b + s.1)
    exact add_le_add (mul_le_mul_of_nonneg_left (elapsed_mono _ (sub_le_sub_right htu b))
      (h s List.mem_cons_self)) hrest

/-- It grows no faster than the highest rate. -/
theorem accrued_sub_le (hlength : ∀ s ∈ spans, 0 ≤ s.1) (hR : 0 ≤ R) (h : ∀ s ∈ spans, s.2 ≤ R)
    (htu : t ≤ u) (b : K) : accrued u b spans - accrued t b spans ≤ R * (u - t) := by
  have hle := accrued_sub_le_sub Prod.fst Prod.snd (fun _ => R) h htu b
  have huniform : ∀ x, accrued x b (spans.map fun s => (s.1, R)) =
      R * elapsed (spans.map Prod.fst).sum (x - b) := by
    intro x
    rw [accrued_uniform (R := R), List.map_map]
    · rfl
    · intro x hx
      obtain ⟨s, hs, rfl⟩ := List.mem_map.mp hx
      exact hlength s hs
    · intro x hx
      obtain ⟨s, -, rfl⟩ := List.mem_map.mp hx
      rfl
  have hspan := mul_le_mul_of_nonneg_left
    (elapsed_sub_le (spans.map Prod.fst).sum (sub_le_sub_right htu b)) hR
  rw [huniform, huniform] at hle
  simp only [Prod.mk.eta, List.map_id'] at hle
  linarith

/-- **Within a span** it grows at the rate of that span, and by what the others add to that. -/
theorem le_accrued_sub (h : ∀ s ∈ spans, 0 ≤ s.2) {i : ℕ} {d rate : K}
    (hi : spans[i]? = some (d, rate)) (htu : t ≤ u)
    (ht : b + Spans.offset (spans.map Prod.fst) i ≤ t)
    (hu : u ≤ b + Spans.offset (spans.map Prod.fst) i + d) :
    rate * (u - t) ≤ accrued u b spans - accrued t b spans := by
  induction spans generalizing b i with
  | nil => cases hi
  | cons s spans ih =>
    have hmore : ∀ s ∈ spans, 0 ≤ s.2 := fun s hs => h s (List.mem_cons_of_mem _ hs)
    cases i with
    | zero =>
      obtain rfl : s = (d, rate) := Option.some.inj hi
      have hothers : accrued t (b + d) spans ≤ accrued u (b + d) spans :=
        accrued_mono hmore (b + d) htu
      simp only [List.map_cons, Spans.offset_zero, add_zero] at ht hu
      -- Within its own span the elapsed time is not capped, so the difference is all of `u - t`.
      have hspan : elapsed d (u - b) - elapsed d (t - b) = u - t := by
        unfold elapsed
        grind
      rw [accrued, accrued, ← hspan]
      linarith
    | succ i =>
      simp only [List.map_cons, Spans.offset_cons_succ, ← add_assoc] at ht hu
      have hrest := ih hmore hi ht hu
      have hfirst : s.2 * elapsed s.1 (t - b) ≤ s.2 * elapsed s.1 (u - b) :=
        mul_le_mul_of_nonneg_left (elapsed_mono _ (sub_le_sub_right htu b))
          (h s List.mem_cons_self)
      rw [accrued, accrued]
      linarith

end Accrual
end ObservabilityStack
