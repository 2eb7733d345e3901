import Mathlib.Algebra.Order.Field.Basic
import Mathlib.Tactic.Linarith

/-!
# A sliding window over an interval

What an incident on `[0, D)` leaves in a window `[t - w, t]` is the overlap of the two. As `t`
grows it rises, stays, and falls; `lt_overlap_iff` says when it exceeds a level, in all regimes
at once: the incident must be longer than the level, it must have gone on for longer than the
level, and it must not have ended too long ago.

`Sustained F p t` is what a rule with a `for` clause waits for: the condition has been true for
`F`, up to and including `t`. For a condition that is true on an open interval,
`sustained_iff` and `exists_sustained_iff` say when that is.

Nothing is ever differentiated and no case of the position of the window is drawn. The functions
are made of `min` and `max`, so each statement about them is a statement of linear arithmetic with
finitely many cases, and a decision procedure goes through the cases better than a reader would.
What is left to a proof is to say the right thing, and the right thing is the equivalence
`lt_overlap_iff` and not its four special cases.
-/

set_option autoImplicit false

namespace ObservabilityStack
namespace Overlap

variable {K : Type*} [Field K] [LinearOrder K]

/-- How much of `[0, D)` lies before `t`. -/
def elapsed (D t : K) : K := max 0 (min t D)

/-- How much of `[0, D)` lies in `[t - w, t]`. -/
def overlap (D w t : K) : K := elapsed D t - elapsed D (t - w)

/-- The condition has been true for `F`, up to and including `t`. -/
def Sustained (F : K) (p : K → Prop) (t : K) : Prop := ∀ u, t - F < u → u ≤ t → p u

theorem elapsed_of_nonpos (D : K) {t : K} (h : t ≤ 0) : elapsed D t = 0 :=
  max_eq_left ((min_le_left t D).trans h)

variable [IsStrictOrderedRing K]

/-- A window never holds more of the interval than its own length. -/
theorem overlap_le (D : K) {w : K} (hw : 0 ≤ w) (t : K) : overlap D w t ≤ w := by
  unfold overlap elapsed
  grind

theorem overlap_nonneg (D : K) {w : K} (hw : 0 ≤ w) (t : K) : 0 ≤ overlap D w t :=
  sub_nonneg.mpr (max_le_max le_rfl (min_le_min_right D (sub_le_self t hw)))

/-- Until the interval ends, a window has seen all of it or is full of it. -/
theorem overlap_of_le {D w t : K} (hw : 0 ≤ w) (ht : t ≤ D) :
    overlap D w t = min w (max 0 t) := by
  unfold overlap elapsed
  grind

/-- **The level is exceeded** from the moment the interval has gone on for that long to the moment
    the window has left that much of it, if the interval is that long at all. -/
theorem lt_overlap_iff {D w c : K} (hc : 0 ≤ c) (hcw : c < w) (t : K) :
    c < overlap D w t ↔ c < D ∧ c < t ∧ t < D + (w - c) := by
  unfold overlap elapsed
  grind

/-! ## Conditions that hold on an open interval

The interval is open, since the levels are strict. A condition that has held for `F` up to `t` has
held on a half-open interval before it, so that a rule whose condition turns true at `a` may fire
at `a + F` and not only after it. -/

variable {F a b : K} {p : K → Prop}

/-- From `F` after the start of the interval on, up to its end. -/
theorem sustained_iff (hF : 0 < F) (hp : ∀ t, p t ↔ a < t ∧ t < b) (t : K) :
    Sustained F p t ↔ a + F ≤ t ∧ t < b := by
  constructor
  · intro h
    have hlast : p t := h t (sub_lt_self t hF) le_rfl
    refine ⟨?_, ((hp t).mp hlast).2⟩
    by_contra hlt
    -- A moment after `t - F` that is not after `a`.
    have hat : a < t := ((hp t).mp hlast).1
    have := (hp a).mp (h a (by linarith) hat.le)
    exact lt_irrefl a this.1
  · intro h u hu hut
    exact (hp u).mpr ⟨by linarith, hut.trans_lt h.2⟩

/-- At some moment, exactly when the interval is longer than `F`. -/
theorem exists_sustained_iff (hF : 0 < F) (hp : ∀ t, p t ↔ a < t ∧ t < b) :
    (∃ t, Sustained F p t) ↔ F < b - a := by
  simp only [sustained_iff hF hp]
  constructor
  · intro h
    obtain ⟨t, hat, htb⟩ := h
    linarith
  · intro h
    exact ⟨a + F, le_rfl, by linarith⟩

end Overlap
end ObservabilityStack
