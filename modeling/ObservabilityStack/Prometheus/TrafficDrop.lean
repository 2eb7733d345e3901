import ObservabilityStack.Prometheus.BurnRate

/-!
# `TrafficDropped`

The rule compares the rate of the last five minutes with that of a baseline. `Drop` is steady
traffic of which a share remains from 0 to `D`. A window sees the overlap of the drop with it, so
the expression turns true when the short window has seen enough of the drop, and turns false again
when the baseline has. `DropClosedForm` says when, for any baseline of five minutes or more, and
that a drop is forgotten within one baseline, which is why the rule asks for six hours and not for
one.

The baseline is a parameter because of that last point. The rule could have been written over
`rate1h`, and the comment beside it says why it was not: the alert would have resolved itself while
the traffic was still gone. Over a parameter this is a theorem about the length of the baseline, and
the rule as it stands is the case of six hours. A baseline that is shorter than the window it is the
baseline of would make no sense, and is left out.

As in `BurnRate`, `rate` is the exact average over its window: what PromQL adds to that by
extrapolating to the ends of the window is left out.
-/

set_option autoImplicit false

namespace ObservabilityStack
namespace Prometheus

open Overlap (elapsed overlap Sustained)

variable {K : Type*} [Field K] [LinearOrder K]

/-! ## The rule

Two conditions in one expression. The second keeps the alert silent about a service that nobody
calls, and it is what lets a drop be forgotten early when the traffic was small. -/

/-- An alert on a rate that falls below a share of its baseline. -/
structure TrafficAlert (K : Type*) where
  rule : AlertingRule
  short : K
  baseline : K
  factor : K
  floor : K

namespace TrafficAlert

/-- `expr`: the rate is below its share of the baseline, and the baseline is no idle one. -/
def expr (a : TrafficAlert K) (total : K → K) (t : K) : Prop :=
  rate total a.short t < a.factor * rate total a.baseline t ∧ a.floor < rate total a.baseline t

def fires (a : TrafficAlert K) (total : K → K) (t : K) : Prop :=
  Sustained (a.rule.forSeconds : K) (a.expr total) t

end TrafficAlert

/-- `TrafficDropped`, over the baseline it is given: `job:http_requests:rate6h` in the rule. -/
def trafficDroppedOver (baseline : ℚ) : TrafficAlert ℚ := ⟨trafficDropped, 300, baseline, 1 / 4, 1⟩

def trafficDroppedAlert : TrafficAlert ℚ := trafficDroppedOver (6 * 3600)

/-! ## A drop

What is missing plays the part that the bad requests play in an incident, and both windows see the
overlap with it. The difference is that the threshold moves too: the baseline falls while the drop
lasts. -/

/-- Steady traffic of which the share `remaining` is left from 0 to `D`. -/
structure Drop (K : Type*) [Field K] [LinearOrder K] where
  traffic : K
  remaining : K
  D : K
  traffic_pos : 0 < traffic
  remaining_nonneg : 0 ≤ remaining
  remaining_lt : remaining < 1

namespace Drop

/-- The share that is missing. -/
def missing (d : Drop K) : K := 1 - d.remaining

def total (d : Drop K) (t : K) : K := d.traffic * (t - d.missing * elapsed d.D t)

end Drop

/-- When the short window has seen enough of a drop. -/
def TrafficAlert.onset (a : TrafficAlert K) (d : Drop K) : K :=
  (1 - a.factor) * a.short * a.baseline / (d.missing * (a.baseline - a.factor * a.short))

/-- When the baseline has fallen as well: to what is left of the traffic, or to the floor. -/
def TrafficAlert.fade (a : TrafficAlert K) (d : Drop K) : K :=
  min (a.baseline * (a.factor - d.remaining) / (a.factor * d.missing))
    (a.baseline * (1 - a.floor / d.traffic) / d.missing)

/-- How an alert on dropped traffic goes along with a drop. -/
structure DropClosedForm (a : TrafficAlert K) (d : Drop K) : Prop where
  /-- While the drop lasts the expression is true between the two moments. -/
  interval : ∀ t, t ≤ d.D → (a.expr d.total t ↔ a.onset d < t ∧ t < a.fade d)
  /-- It fires from the detection time on, until the baseline has forgotten. -/
  firing : ∀ t, t ≤ d.D →
    (a.fires d.total t ↔ a.onset d + a.rule.forSeconds ≤ t ∧ t < a.fade d)
  /-- However long the drop lasts, that is within one baseline. -/
  forgotten : a.fade d ≤ a.baseline
  /-- After the drop it is true for less than its share of the short window. -/
  reset : ∀ t, a.expr d.total t → t < d.D + a.short * a.factor
  /-- A drop that leaves as much as the rule asks for is never seen. -/
  never : a.factor ≤ d.remaining ∨ d.traffic ≤ a.floor → ∀ t, ¬ a.expr d.total t

variable [IsStrictOrderedRing K]

namespace Drop

variable (d : Drop K)

theorem missing_pos : 0 < d.missing := sub_pos.mpr d.remaining_lt

theorem missing_le : d.missing ≤ 1 := sub_le_self 1 d.remaining_nonneg

omit [IsStrictOrderedRing K] in
theorem rate_total {w : K} (hw : 0 < w) (t : K) :
    rate d.total w t = d.traffic * (1 - d.missing * overlap d.D w t / w) := by
  unfold rate total overlap
  field_simp
  ring

end Drop

/-- What the proofs use of the rule. -/
structure TrafficAlert.WellFormed (a : TrafficAlert K) : Prop where
  short_pos : 0 < a.short
  short_le : a.short ≤ a.baseline
  factor_pos : 0 < a.factor
  factor_lt : a.factor < 1
  floor_nonneg : 0 ≤ a.floor
  for_pos : 0 < (a.rule.forSeconds : K)

theorem trafficDroppedOver_wellFormed {baseline : ℚ} (h : 300 ≤ baseline) :
    (trafficDroppedOver baseline).WellFormed := by
  constructor
  · norm_num [trafficDroppedOver]
  · exact h
  · norm_num [trafficDroppedOver]
  · norm_num [trafficDroppedOver]
  · norm_num [trafficDroppedOver]
  · norm_num [trafficDroppedOver, trafficDropped]

section ClosedForm

variable {a : TrafficAlert K} (ha : a.WellFormed) (d : Drop K)

include ha

/-- The expression, in terms of what the two windows see of the drop. -/
theorem TrafficAlert.expr_iff (t : K) : a.expr d.total t ↔
    1 - a.factor < d.missing *
        (overlap d.D a.short t / a.short - a.factor * (overlap d.D a.baseline t / a.baseline)) ∧
      a.floor / d.traffic < 1 - d.missing * (overlap d.D a.baseline t / a.baseline) := by
  have hT := d.traffic_pos
  have hbaseline : 0 < a.baseline := ha.short_pos.trans_le ha.short_le
  unfold TrafficAlert.expr
  rw [d.rate_total ha.short_pos, d.rate_total hbaseline, mul_left_comm,
    mul_lt_mul_iff_right₀ hT, div_lt_iff₀' hT, mul_div_assoc, mul_div_assoc]
  apply and_congr_left
  intro _
  constructor
  · intro h
    linarith
  · intro h
    linarith

/-- The short window has seen enough. -/
theorem TrafficAlert.onset_lt_iff (t : K) : a.onset d < t ↔
    1 - a.factor < d.missing * (t / a.short - a.factor * (t / a.baseline)) := by
  have hshort := ha.short_pos
  have hbaseline : 0 < a.baseline := hshort.trans_le ha.short_le
  have hgap : 0 < a.baseline - a.factor * a.short := by
    nlinarith [ha.short_le, ha.factor_lt]
  have hscale : d.missing * (t / a.short - a.factor * (t / a.baseline)) =
      t * (d.missing * (a.baseline - a.factor * a.short)) / (a.short * a.baseline) := by
    field_simp
  unfold TrafficAlert.onset
  rw [hscale, lt_div_iff₀ (mul_pos hshort hbaseline), div_lt_iff₀ (mul_pos d.missing_pos hgap),
    mul_assoc]

/-- The baseline still shows the traffic there was. -/
theorem TrafficAlert.lt_fade_iff (t : K) : t < a.fade d ↔
    1 - a.factor < d.missing * (1 - a.factor * (t / a.baseline)) ∧
      a.floor / d.traffic < 1 - d.missing * (t / a.baseline) := by
  have hbaseline : 0 < a.baseline := ha.short_pos.trans_le ha.short_le
  have hp := d.missing_pos
  have hfall : t / a.baseline * (a.factor * d.missing) = t * (a.factor * d.missing) / a.baseline :=
    div_mul_eq_mul_div _ _ _
  have hkept : t / a.baseline * d.missing = t * d.missing / a.baseline := div_mul_eq_mul_div _ _ _
  unfold TrafficAlert.fade
  rw [lt_min_iff, lt_div_iff₀ (mul_pos ha.factor_pos hp), lt_div_iff₀ hp,
    ← div_lt_iff₀' hbaseline, ← div_lt_iff₀' hbaseline, ← hfall, ← hkept]
  apply and_congr
  · unfold Drop.missing
    constructor
    · intro h
      linarith
    · intro h
      linarith
  · constructor
    · intro h
      linarith
    · intro h
      linarith

/-- **A drop is forgotten** within one baseline. -/
theorem TrafficAlert.fade_le : a.fade d ≤ a.baseline := by
  have hbaseline : 0 < a.baseline := ha.short_pos.trans_le ha.short_le
  refine (min_le_left _ _).trans ?_
  rw [div_le_iff₀ (mul_pos ha.factor_pos d.missing_pos)]
  refine mul_le_mul_of_nonneg_left ?_ hbaseline.le
  unfold Drop.missing
  nlinarith [d.remaining_nonneg, ha.factor_lt]

/-- The expression while the drop lasts. -/
theorem TrafficAlert.expr_interval {t : K} (ht : t ≤ d.D) :
    a.expr d.total t ↔ a.onset d < t ∧ t < a.fade d := by
  have hshort := ha.short_pos
  have hbaseline : 0 < a.baseline := hshort.trans_le ha.short_le
  have hp := d.missing_pos
  have hφ := ha.factor_lt
  -- What is missing never hides more of the traffic than all of it.
  have hfull : d.missing * (1 - a.factor) ≤ 1 - a.factor :=
    mul_le_of_le_one_left (by linarith) d.missing_le
  rw [a.expr_iff ha d, Overlap.overlap_of_le hshort.le ht, Overlap.overlap_of_le hbaseline.le ht,
    a.onset_lt_iff ha d, a.lt_fade_iff ha d]
  rcases le_or_gt t 0 with hneg | hpos
  · -- Nothing is seen of a drop that has not begun.
    have hle : t / a.short ≤ t / a.baseline := by
      rw [div_le_div_iff₀ hshort hbaseline]
      nlinarith [ha.short_le]
    have hY : t / a.baseline ≤ 0 := div_nonpos_of_nonpos_of_nonneg hneg hbaseline.le
    have hsum : t / a.short - a.factor * (t / a.baseline) ≤ 0 := by nlinarith
    rw [max_eq_left hneg, min_eq_right hshort.le, min_eq_right hbaseline.le, zero_div, zero_div]
    constructor
    · intro h
      linarith [h.1]
    · intro h
      linarith [h.1, mul_nonpos_of_nonneg_of_nonpos hp.le hsum]
  · rw [max_eq_right hpos.le]
    rcases le_or_gt t a.short with hin | hout
    · -- The short window is not full yet: what it sees decides.
      have hX : t / a.short ≤ 1 := (div_le_one hshort).mpr hin
      have hmore : d.missing * (t / a.short - a.factor * (t / a.baseline)) ≤
          d.missing * (1 - a.factor * (t / a.baseline)) := by gcongr
      rw [min_eq_right hin, min_eq_right (hin.trans ha.short_le)]
      exact ⟨fun h => ⟨h.1, h.1.trans_le hmore, h.2⟩, fun h => ⟨h.1, h.2.2⟩⟩
    · rw [min_eq_left hout.le, div_self hshort.ne']
      have hX : 1 ≤ t / a.short := (one_le_div hshort).mpr hout.le
      rcases le_or_gt t a.baseline with hseen | hgone
      · -- The short window is full: what the baseline sees decides.
        have hmore : d.missing * (1 - a.factor * (t / a.baseline)) ≤
            d.missing * (t / a.short - a.factor * (t / a.baseline)) := by gcongr
        rw [min_eq_right hseen]
        exact ⟨fun h => ⟨h.1.trans_le hmore, h⟩, fun h => h.2⟩
      · -- Both are full: the rates are the same.
        have hY : 1 ≤ t / a.baseline := (one_le_div hbaseline).mpr hgone.le
        have hmore : d.missing * (1 - a.factor * (t / a.baseline)) ≤
            d.missing * (1 - a.factor) := by
          have := mul_le_mul_of_nonneg_left hY ha.factor_pos.le
          refine mul_le_mul_of_nonneg_left ?_ hp.le
          linarith
        rw [min_eq_left hgone.le, div_self hbaseline.ne', mul_one]
        constructor
        · intro h
          linarith [h.1]
        · intro h
          linarith [h.2.1]

/-- What the short window sees of the drop. -/
theorem TrafficAlert.lt_overlap_of_expr {t : K} (h : a.expr d.total t) :
    a.short * (1 - a.factor) < d.missing * overlap d.D a.short t := by
  have hshort := ha.short_pos
  have hbaseline : 0 < a.baseline := hshort.trans_le ha.short_le
  have hseen : 0 ≤ overlap d.D a.baseline t / a.baseline :=
    div_nonneg (Overlap.overlap_nonneg _ hbaseline.le t) hbaseline.le
  have hless : d.missing * (overlap d.D a.short t / a.short -
      a.factor * (overlap d.D a.baseline t / a.baseline)) ≤
        d.missing * overlap d.D a.short t / a.short := by
    rw [mul_div_assoc]
    exact mul_le_mul_of_nonneg_left (sub_le_self _ (mul_nonneg ha.factor_pos.le hseen))
      d.missing_pos.le
  exact (lt_div_iff₀' hshort).mp (((a.expr_iff ha d t).mp h).1.trans_le hless)

/-- The expression ends with the drop. -/
theorem TrafficAlert.expr_reset {t : K} (h : a.expr d.total t) : t < d.D + a.short * a.factor := by
  have hshort := ha.short_pos
  have hlevel : 0 ≤ a.short * (1 - a.factor) :=
    mul_nonneg hshort.le (sub_nonneg.mpr ha.factor_lt.le)
  have hwindow : a.short * (1 - a.factor) < a.short :=
    mul_lt_of_lt_one_right hshort (sub_lt_self 1 ha.factor_pos)
  have hoverlap : a.short * (1 - a.factor) < overlap d.D a.short t :=
    (a.lt_overlap_of_expr ha d h).trans_le
      (mul_le_of_le_one_left (Overlap.overlap_nonneg _ hshort.le t) d.missing_le)
  linarith [((Overlap.lt_overlap_iff hlevel hwindow t).mp hoverlap).2.2]

/-- A small drop, or one of little traffic, is not seen. -/
theorem TrafficAlert.expr_never (h : a.factor ≤ d.remaining ∨ d.traffic ≤ a.floor) (t : K) :
    ¬ a.expr d.total t := by
  have hshort := ha.short_pos
  have hbaseline : 0 < a.baseline := hshort.trans_le ha.short_le
  intro hexpr
  rcases h with hshare | hfloor
  · have hseen := a.lt_overlap_of_expr ha d hexpr
    have hmost : d.missing * overlap d.D a.short t ≤ (1 - a.factor) * a.short :=
      mul_le_mul (sub_le_sub_left hshare 1) (Overlap.overlap_le _ hshort.le t)
        (Overlap.overlap_nonneg _ hshort.le t) (sub_nonneg.mpr ha.factor_lt.le)
    linarith
  · have hhigh := ((a.expr_iff ha d t).mp hexpr).2
    have hone : 1 ≤ a.floor / d.traffic := (one_le_div d.traffic_pos).mpr hfloor
    have hseen : 0 ≤ d.missing * (overlap d.D a.baseline t / a.baseline) :=
      mul_nonneg d.missing_pos.le
        (div_nonneg (Overlap.overlap_nonneg _ hbaseline.le t) hbaseline.le)
    linarith

end ClosedForm

/-- **A drop in traffic**, over any baseline that is no shorter than the window it is compared
    with. -/
theorem traffic_drop_closed_form {baseline : ℚ} (hbaseline : 300 ≤ baseline) (d : Drop ℚ) :
    DropClosedForm (trafficDroppedOver baseline) d := by
  have hwf := trafficDroppedOver_wellFormed hbaseline
  refine ⟨fun t ht => TrafficAlert.expr_interval hwf d ht, ?_, TrafficAlert.fade_le hwf d,
    fun t => TrafficAlert.expr_reset hwf d, TrafficAlert.expr_never hwf d⟩
  intro t ht
  rw [← Overlap.sustained_iff hwf.for_pos fun u => Iff.rfl]
  -- All of the time `for` looks back on lies before the end of the drop.
  constructor
  · exact fun h u hu hut => (TrafficAlert.expr_interval hwf d (hut.trans ht)).mp (h u hu hut)
  · exact fun h u hu hut => (TrafficAlert.expr_interval hwf d (hut.trans ht)).mpr (h u hu hut)

/-- All traffic is gone for a day. -/
def blackout : Drop ℚ := ⟨20, 0, 86400, outageOfTenMinutes.traffic_pos, le_rfl, zero_lt_one⟩

theorem traffic_drop_closed_form_blackout : DropClosedForm trafficDroppedAlert blackout :=
  traffic_drop_closed_form (by norm_num) blackout

end Prometheus
end ObservabilityStack
