import Mathlib.Tactic.FieldSimp
import Mathlib.Tactic.NormNum
import Mathlib.Tactic.Positivity
import Mathlib.Tactic.Ring
import ObservabilityStack.Lib.Overlap
import ObservabilityStack.Prometheus.Alerting

/-!
# Multi-window burn-rate alerts

The four SLO alerts of `alerting.yml` have one form: the share of bad requests over a long window
and over a short one both exceed the burn rate times the error budget, for some time. The shares
are the recording rules `…:ratio_rate*` and `…:slow_ratio_rate*`, quotients of two rates.

`Incident` is the traffic the documentation reasons about: constant, begun at least a long window
before, and with a constant share `r` of bad requests from 0 to `D`. Its counters are exact, and
`rate` over `[t - w, t]` is the exact average, so what a window sees of the incident is its overlap
with it (`rate_bad`). `ClosedForm` is what `slo/README.md` says about detection and reset, and
`burn_alert_closed_form` says it of all four alerts.

Time is in seconds, in an arbitrary ordered field.

The alert and the incident are two descriptions that meet in the counters. `expr` and `fires` are
about any counters at all and know nothing of incidents, and an `Incident` is one way to produce
counters. The results of other modules replace the incident and keep the alert.

What is idealised is the rate, and nothing else. Evaluation is at every moment rather than at the
ticks of the rule group, so the times are those toward which the evaluations of Prometheus converge
from above, by at most one interval for each rule on the way.
-/

set_option autoImplicit false

namespace ObservabilityStack
namespace Prometheus

open Overlap (elapsed overlap Sustained)

/-! ## Rates, recording rules, alerts

A recording rule may have no value at a moment, and a comparison then selects nothing. That is why
the shares are options, and why an alert is silent about a service that nobody calls. -/

section Rules

variable {K : Type*} [Field K] [LinearOrder K]

/-- `rate(c[w])` at `t`. -/
def rate (c : K → K) (w t : K) : K := (c t - c (t - w)) / w

/-- A quotient of two samples. `none` is the `NaN` of 0 / 0, which no comparison selects; a counter
    of some requests does not move when that of all of them does not. -/
def quotient (x y : K) : Option K := if y = 0 then none else some (x / y)

/-- The counters of one job, summed over its series: all requests, and the bad ones, which are
    those answered with a 5xx or those slower than the objective. -/
structure Counters (K : Type*) where
  total : K → K
  bad : K → K

/-- The two indicators, and how each computes the share of bad requests. -/
inductive Sli
  | availability
  | latency
  deriving DecidableEq, Repr

/-- `job:http_requests_errors:ratio_rate<w>` is the rate of bad requests over the rate of all,
    `job:http_request_duration_seconds:slow_ratio_rate<w>` is one minus the rate of good ones (the
    bucket `le="0.3"`) over the rate of all. -/
def ratioRate (c : Counters K) (w t : K) : Sli → Option K
  | .availability => quotient (rate c.bad w t) (rate c.total w t)
  | .latency =>
      (quotient (rate (fun u => c.total u - c.bad u) w t) (rate c.total w t)).map fun x => 1 - x

/-- An alert on a burn rate: `long` and `short` are the windows of its two operands. -/
structure SloAlert (K : Type*) where
  rule : AlertingRule
  sli : Sli
  long : K
  short : K
  burnRate : K
  budget : K

namespace SloAlert

def threshold (a : SloAlert K) : K := a.burnRate * a.budget

/-- `expr`: both shares are above the threshold. -/
def expr (a : SloAlert K) (c : Counters K) (t : K) : Prop :=
  (∃ x, ratioRate c a.long t a.sli = some x ∧ a.threshold < x) ∧
    ∃ x, ratioRate c a.short t a.sli = some x ∧ a.threshold < x

/-- The alert is firing: `expr` has been true for the time `for` asks for. -/
def fires (a : SloAlert K) (c : Counters K) (t : K) : Prop :=
  Sustained (a.rule.forSeconds : K) (a.expr c) t

end SloAlert

variable (K) in
/-- The alerts of the groups `slo_availability` and `slo_latency` that have a burn rate. -/
def sloAlerts : List (SloAlert K) :=
  [⟨errorBudgetBurnFast, .availability, 3600, 300, 144 / 10, 1 / 1000⟩,
   ⟨errorBudgetBurnSlow, .availability, 21600, 1800, 6, 1 / 1000⟩,
   ⟨latencyBudgetBurnFast, .latency, 3600, 300, 144 / 10, 1 / 100⟩,
   ⟨latencyBudgetBurnSlow, .latency, 21600, 1800, 6, 1 / 100⟩]

/-! ## An incident

The traffic goes back for at least a long window, as the documentation assumes. Without that a
window would be only partly full, the share higher than computed and the detection earlier. -/

/-- Traffic at the rate `traffic` since `since`, of which the share `r` is bad from 0 to `D`. -/
structure Incident (K : Type*) [Field K] [LinearOrder K] where
  traffic : K
  since : K
  r : K
  D : K
  traffic_pos : 0 < traffic
  r_pos : 0 < r
  r_le : r ≤ 1

def Incident.counters (i : Incident K) : Counters K where
  total t := i.traffic * max 0 (t - i.since)
  bad t := i.traffic * i.r * elapsed i.D t

end Rules

variable {K : Type*} [Field K] [LinearOrder K] [IsStrictOrderedRing K]

/-- What `slo/README.md` says of an alert and an incident. -/
structure ClosedForm (a : SloAlert K) (i : Incident K) : Prop where
  /-- Too few bad requests, or too short: the expression is never true. -/
  never : i.r ≤ a.threshold ∨ i.D ≤ a.long * a.threshold / i.r → ∀ t, ¬ a.expr i.counters t
  /-- Otherwise it is true on an open interval. -/
  interval : a.threshold < i.r → a.long * a.threshold / i.r < i.D → ∀ t,
    a.expr i.counters t ↔
      a.long * a.threshold / i.r < t ∧ t < i.D + a.short * (1 - a.threshold / i.r)
  /-- The alert fires at some moment iff the interval is longer than `for`. -/
  detected : (∃ t, a.fires i.counters t) ↔ a.threshold < i.r ∧ a.long * a.threshold / i.r < i.D ∧
    (a.rule.forSeconds : K) <
      i.D + a.short * (1 - a.threshold / i.r) - a.long * a.threshold / i.r
  /-- It fires from the detection time on, to the end of the interval. -/
  firing : a.threshold < i.r → a.long * a.threshold / i.r < i.D → ∀ t, a.fires i.counters t ↔
    a.long * a.threshold / i.r + a.rule.forSeconds ≤ t ∧
      t < i.D + a.short * (1 - a.threshold / i.r)
  /-- The interval ends less than a short window after the incident. -/
  reset : i.D + a.short * (1 - a.threshold / i.r) < i.D + a.short

/-! ## What a window sees

The overlap of a window with the incident is what `Overlap` is about. Here is the translation: a
share over a window exceeds a threshold when the overlap exceeds a fraction of the window. -/

omit [LinearOrder K] [IsStrictOrderedRing K] in
theorem rate_sub (c d : K → K) (w t : K) :
    rate (fun u => c u - d u) w t = rate c w t - rate d w t := by
  unfold rate
  ring

omit [IsStrictOrderedRing K] in
/-- Both indicators are the rate of bad requests over the rate of all. -/
theorem ratioRate_eq (c : Counters K) (w t : K) (sli : Sli) :
    ratioRate c w t sli = quotient (rate c.bad w t) (rate c.total w t) := by
  cases sli with
  | availability => rfl
  | latency =>
    simp only [ratioRate, rate_sub, quotient]
    split
    · rfl
    · rename_i hne
      rw [Option.map_some, sub_div, div_self hne, sub_sub_cancel]

namespace Incident

variable (i : Incident K)

theorem rate_bad (w t : K) :
    rate i.counters.bad w t = i.traffic * i.r * overlap i.D w t / w := by
  unfold rate counters overlap
  ring

/-- After the start of the incident a window is full of traffic. -/
theorem rate_total {w t : K} (hw : 0 < w) (hsince : i.since ≤ -w) (ht : 0 < t) :
    rate i.counters.total w t = i.traffic := by
  unfold rate counters
  dsimp only
  rw [max_eq_right (by linarith), max_eq_right (by linarith)]
  field_simp
  ring

/-- **The share over a window exceeds a threshold** when the window holds enough of the
    incident. -/
theorem exceeds_iff (sli : Sli) {w θ : K} (hw : 0 < w) (hsince : i.since ≤ -w) (hθ : 0 ≤ θ)
    (t : K) : (∃ x, ratioRate i.counters w t sli = some x ∧ θ < x) ↔
      w * θ / i.r < overlap i.D w t := by
  rw [ratioRate_eq, rate_bad]
  have hr := i.r_pos
  have hT := i.traffic_pos
  rcases le_or_gt t 0 with ht | ht
  · -- Before the incident there is nothing bad, and perhaps no traffic either.
    have hzero : overlap i.D w t = 0 := by
      unfold overlap
      rw [Overlap.elapsed_of_nonpos _ ht, Overlap.elapsed_of_nonpos _ (by linarith), sub_self]
    have hlevel : 0 ≤ w * θ / i.r := div_nonneg (mul_nonneg hw.le hθ) hr.le
    rw [hzero]
    constructor
    · intro h
      obtain ⟨x, hx, hlt⟩ := h
      unfold quotient at hx
      split at hx
      · cases hx
      · rw [mul_zero, zero_div, zero_div, Option.some.injEq] at hx
        rw [← hx] at hlt
        exact absurd hlt (not_lt.mpr hθ)
    · intro h
      exact absurd h (not_lt.mpr hlevel)
  · rw [i.rate_total hw hsince ht, quotient, if_neg hT.ne']
    have hshare : i.traffic * i.r * overlap i.D w t / w / i.traffic =
        i.r * overlap i.D w t / w := by
      field_simp
    simp only [Option.some.injEq, exists_eq_left', hshare]
    rw [lt_div_iff₀ hw, div_lt_iff₀ hr, mul_comm θ w, mul_comm (overlap i.D w t) i.r]

end Incident

/-! ## The closed form

Two windows, two conditions on `t`. The long one needs more of the incident before its share is
high, so it decides when the expression becomes true; the short one forgets the incident sooner, so
it decides when it becomes false again. `for` takes its time off the beginning. -/

/-- What the four alerts have in common. -/
structure SloAlert.WellFormed (a : SloAlert K) : Prop where
  short_pos : 0 < a.short
  long_eq : a.long = 12 * a.short
  threshold_pos : 0 < a.threshold
  for_pos : 0 < (a.rule.forSeconds : K)

theorem sloAlerts_wellFormed : ∀ a ∈ sloAlerts K, a.WellFormed := by
  intro a ha
  simp only [sloAlerts, List.mem_cons, List.not_mem_nil, or_false] at ha
  rcases ha with rfl | rfl | rfl | rfl
  all_goals
    constructor
    · norm_num
    · norm_num
    · norm_num [SloAlert.threshold]
    · norm_num [errorBudgetBurnFast, errorBudgetBurnSlow, latencyBudgetBurnFast,
        latencyBudgetBurnSlow]

section ClosedForm

variable {a : SloAlert K} (ha : a.WellFormed) (i : Incident K) (hsince : i.since ≤ -a.long)

include ha hsince

theorem expr_iff (t : K) : a.expr i.counters t ↔
    a.long * a.threshold / i.r < overlap i.D a.long t ∧
      a.short * a.threshold / i.r < overlap i.D a.short t := by
  have hshort := ha.short_pos
  have hlong := ha.long_eq
  have hθ := ha.threshold_pos.le
  apply and_congr
  · exact i.exceeds_iff a.sli (by linarith) hsince hθ t
  · exact i.exceeds_iff a.sli hshort (by linarith) hθ t

/-- The expression is never true. -/
theorem expr_never (h : i.r ≤ a.threshold ∨ i.D ≤ a.long * a.threshold / i.r) (t : K) :
    ¬ a.expr i.counters t := by
  have hlong : 0 < a.long := by linarith [ha.short_pos, ha.long_eq]
  have hr := i.r_pos
  rw [expr_iff ha i hsince]
  intro hexpr
  by_cases hθ : i.r ≤ a.threshold
  · -- The level is the whole window.
    have hlevel : a.long ≤ a.long * a.threshold / i.r := by
      rw [le_div_iff₀ hr]
      exact mul_le_mul_of_nonneg_left hθ hlong.le
    exact absurd (hlevel.trans_lt hexpr.1) (not_lt.mpr (Overlap.overlap_le i.D hlong.le t))
  · have hlevel : a.long * a.threshold / i.r < a.long := by
      rw [div_lt_iff₀ hr]
      exact mul_lt_mul_of_pos_left (not_le.mp hθ) hlong
    have hpos : 0 ≤ a.long * a.threshold / i.r :=
      div_nonneg (mul_nonneg hlong.le ha.threshold_pos.le) hr.le
    have hD := ((Overlap.lt_overlap_iff hpos hlevel t).mp hexpr.1).1
    exact absurd hD (not_lt.mpr (h.resolve_left hθ))

/-- The expression is true on an open interval. The long window decides when it begins, the short
    one when it ends. -/
theorem expr_interval (hθ : a.threshold < i.r) (hD : a.long * a.threshold / i.r < i.D) (t : K) :
    a.expr i.counters t ↔ a.long * a.threshold / i.r < t ∧
      t < i.D + a.short * (1 - a.threshold / i.r) := by
  have hr := i.r_pos
  have hshort := ha.short_pos
  have hq₀ : 0 < a.threshold / i.r := div_pos ha.threshold_pos hr
  have hq₁ : a.threshold / i.r < 1 := (div_lt_one hr).mpr hθ
  rw [mul_div_assoc] at hD
  rw [expr_iff ha i hsince, mul_div_assoc, mul_div_assoc]
  generalize a.threshold / i.r = q at *
  have hlong : 0 < a.long := by linarith [ha.long_eq]
  have hstart : a.short * q < a.long * q :=
    mul_lt_mul_of_pos_right (by linarith [ha.long_eq]) hq₀
  have hend : a.short * (1 - q) < a.long * (1 - q) :=
    mul_lt_mul_of_pos_right (by linarith [ha.long_eq]) (by linarith)
  rw [Overlap.lt_overlap_iff (by positivity) (by nlinarith) t,
    Overlap.lt_overlap_iff (by positivity) (by nlinarith) t]
  constructor
  · intro h
    exact ⟨h.1.2.1, by linarith [h.2.2.2]⟩
  · intro h
    exact ⟨⟨hD, h.1, by linarith [h.2]⟩, by linarith, by linarith [h.1], by linarith [h.2]⟩

end ClosedForm

/-- **Detection time and reset of the four burn-rate alerts.** -/
theorem burn_alert_closed_form (a : SloAlert K) (ha : a ∈ sloAlerts K) (i : Incident K)
    (hsince : i.since ≤ -a.long) : ClosedForm a i := by
  have hwf := sloAlerts_wellFormed a ha
  refine ⟨expr_never hwf i hsince, expr_interval hwf i hsince, ?_, ?_, ?_⟩
  · constructor
    · intro h
      obtain ⟨t, ht⟩ := h
      have hexpr : a.expr i.counters t := ht t (sub_lt_self t hwf.for_pos) le_rfl
      have hlarge : ¬ (i.r ≤ a.threshold ∨ i.D ≤ a.long * a.threshold / i.r) :=
        fun hsmall => expr_never hwf i hsince hsmall t hexpr
      rw [not_or, not_le, not_le] at hlarge
      refine ⟨hlarge.1, hlarge.2, ?_⟩
      exact (Overlap.exists_sustained_iff hwf.for_pos
        (expr_interval hwf i hsince hlarge.1 hlarge.2)).mp ⟨t, ht⟩
    · intro h
      exact (Overlap.exists_sustained_iff hwf.for_pos
        (expr_interval hwf i hsince h.1 h.2.1)).mpr h.2.2
  · intro hθ hD t
    exact Overlap.sustained_iff hwf.for_pos (expr_interval hwf i hsince hθ hD) t
  · have hq : 0 < a.threshold / i.r := div_pos hwf.threshold_pos i.r_pos
    have := mul_pos hwf.short_pos hq
    rw [mul_sub, mul_one]
    linarith

/-- A complete outage of ten minutes. -/
def outageOfTenMinutes : Incident ℚ := ⟨20, -86400, 1, 600, by norm_num, by norm_num, le_refl 1⟩

theorem burn_alert_closed_form_outage :
    ClosedForm ⟨errorBudgetBurnFast, .availability, 3600, 300, 144 / 10, 1 / 1000⟩
      outageOfTenMinutes :=
  burn_alert_closed_form _ List.mem_cons_self outageOfTenMinutes
    (by norm_num [outageOfTenMinutes])

end Prometheus
end ObservabilityStack
