import Mathlib.Tactic.LinearCombination
import ObservabilityStack.Lib.Covering
import ObservabilityStack.Prometheus.BurnRate

/-!
# What the burn-rate alerts cost and what they let through

`slo/sample-app.yml` says of each alert how much of the budget of thirty days is spent when it
fires, and how long the budget lasts at the rate it stands for. An entry is a `Promise`, and
`Promise.Kept` is what it says: of the incidents of `BurnRate`, where the share is exact, and of any
counters, where it is a bound. The numbers of the file enter at one place, `promises_consistent`,
which is the arithmetic of `slo/README.md`; the rest follows from the closed form of the alerts and
would survive another choice of windows and burn rates.

The other side, for any counters and any shape of traffic and errors, is `silence_bounds_spending`:
what was spent while an alert was silent. A moment at which the expression is false is a moment at
which one of its two windows is light (`Covering.Light`). An alert that does not fire has such a
moment in every stretch as long as its `for`, and no `for` is longer than half a short window.

An alert that is silent up to `e` says nothing of the last `for` before `e`: the expression may have
been true all that time, and every request bad, and `for` is not over. So its bound ends there. The
traffic it is a share of goes back a long window, since that is where the windows look.

As in `BurnRate`, `rate` is the exact average over its window. PromQL reckons it from the samples in
the window and extrapolates to its ends, which is left out here.
-/

set_option autoImplicit false

namespace ObservabilityStack
namespace Prometheus

variable {K : Type*} [Field K] [LinearOrder K]

/-! ## Counters

What is asked of counters that are otherwise arbitrary: they grow, and the bad requests are some of
all of them. A reset of the process would be a violation, and `rate` would have to correct it. -/

/-- Counters only grow, and the bad requests are among all of them. -/
structure Counters.Growing (c : Counters K) : Prop where
  bad : Monotone c.bad
  /-- So no stretch has more bad requests than requests. -/
  good : Monotone fun t => c.total t - c.bad t

/-- What is counted over a window. -/
def growth (f : K → K) (w t : K) : K := f t - f (t - w)

/-- How long an incident goes on before the expression of the alert becomes true. -/
def SloAlert.onset (a : SloAlert K) (i : Incident K) : K := a.long * a.threshold / i.r

/-- What an entry under `alerting` promises of its alert. -/
structure Promise (K : Type*) where
  alert : SloAlert K
  /-- `window`, in seconds -/
  window : K
  budgetConsumedAtDetection : K
  /-- `time_to_exhaustion`, in seconds -/
  timeToExhaustion : K

/-- The bad requests that the window allows of so much traffic. -/
def Promise.allowance (p : Promise K) (traffic : K) : K :=
  p.alert.budget * (traffic * p.window)

variable [IsStrictOrderedRing K]

namespace Counters.Growing

variable {c : Counters K} (hc : c.Growing)

include hc

theorem total : Monotone c.total := by
  intro t u h
  have hbad := hc.bad h
  have hgood : c.total t - c.bad t ≤ c.total u - c.bad u := hc.good h
  linarith

theorem growth_bad_le {w : K} (hw : 0 ≤ w) (t : K) : growth c.bad w t ≤ growth c.total w t := by
  have hgood : c.total (t - w) - c.bad (t - w) ≤ c.total t - c.bad t :=
    hc.good (sub_le_self t hw)
  unfold growth
  linarith

/-- **A share exceeds a threshold** when more than that share of what the window counted is bad. -/
theorem exceeds_iff (sli : Sli) {w : K} (θ : K) (hw : 0 < w) (t : K) :
    (∃ x, ratioRate c w t sli = some x ∧ θ < x) ↔
      θ * growth c.total w t < growth c.bad w t := by
  have hbad := hc.growth_bad_le hw.le t
  have htotal : 0 ≤ growth c.total w t := sub_nonneg.mpr (hc.total (sub_le_self t hw.le))
  have hrate : ∀ f : K → K, rate f w t = growth f w t / w := fun f => rfl
  rw [ratioRate_eq, hrate, hrate, quotient]
  split
  · rename_i hzero
    have hnone : growth c.total w t = 0 := (div_eq_zero_iff.mp hzero).resolve_right hw.ne'
    rw [hnone] at hbad ⊢
    simp only [reduceCtorEq, false_and, exists_false, mul_zero, false_iff, not_lt]
    exact hbad
  · rename_i hne
    have hpos : 0 < growth c.total w t :=
      lt_of_le_of_ne htotal fun h => hne (by rw [← h, zero_div])
    simp only [Option.some.injEq, exists_eq_left', div_div_div_cancel_right₀ hw.ne']
    exact lt_div_iff₀ hpos

end Counters.Growing

/-- The counters of an incident are such. -/
theorem Incident.growing (i : Incident K) (hsince : i.since ≤ 0) : i.counters.Growing := by
  have hT := i.traffic_pos
  have hr := i.r_pos
  constructor
  · intro t u h
    show i.traffic * i.r * Overlap.elapsed i.D t ≤ i.traffic * i.r * Overlap.elapsed i.D u
    have helapsed : Overlap.elapsed i.D t ≤ Overlap.elapsed i.D u :=
      max_le_max le_rfl (min_le_min_right i.D h)
    gcongr
  · intro t u h
    show i.traffic * max 0 (t - i.since) - i.traffic * i.r * Overlap.elapsed i.D t ≤
      i.traffic * max 0 (u - i.since) - i.traffic * i.r * Overlap.elapsed i.D u
    -- No more of the incident goes by than time, nor than time since the traffic began.
    have hless : Overlap.elapsed i.D u - Overlap.elapsed i.D t ≤
        max 0 (u - i.since) - max 0 (t - i.since) := by
      unfold Overlap.elapsed
      grind
    have hgrows : 0 ≤ Overlap.elapsed i.D u - Overlap.elapsed i.D t :=
      sub_nonneg.mpr (max_le_max le_rfl (min_le_min_right i.D h))
    have hscaled : i.r * (Overlap.elapsed i.D u - Overlap.elapsed i.D t) ≤
        max 0 (u - i.since) - max 0 (t - i.since) :=
      (mul_le_of_le_one_left hgrows i.r_le).trans hless
    nlinarith

/-! ## Silence

A stretch of time is covered by light windows that overlap little, and what each of them has
counted is bounded by the share of its traffic. The covering lemma chooses them; what it needs is
that there is a light window near every moment. -/

/-- `for` is no longer than half a short window. -/
theorem for_le_short : ∀ a ∈ sloAlerts K, 2 * (a.rule.forSeconds : K) ≤ a.short := by
  intro a ha
  simp only [sloAlerts, List.mem_cons, List.not_mem_nil, or_false] at ha
  rcases ha with rfl | rfl | rfl | rfl
  all_goals
    norm_num [errorBudgetBurnFast, errorBudgetBurnSlow, latencyBudgetBurnFast,
      latencyBudgetBurnSlow]

/-- Where the expression is false, a window is light. -/
theorem light_of_not_expr {a : SloAlert K} (ha : a.WellFormed) {c : Counters K} (hc : c.Growing)
    {u : K} (h : ¬ a.expr c u) :
    Covering.Light c.bad c.total a.threshold a.short a.long u := by
  have hshort := ha.short_pos
  have hlong := ha.long_eq
  have hwindows : a.short ≤ a.long := by linarith
  rcases not_and_or.mp h with hquiet | hquiet
  · rw [hc.exceeds_iff a.sli a.threshold (by linarith), not_lt] at hquiet
    exact ⟨a.long, hwindows, le_rfl, hquiet⟩
  · rw [hc.exceeds_iff a.sli a.threshold hshort, not_lt] at hquiet
    exact ⟨a.short, le_rfl, hwindows, hquiet⟩

/-- Where an alert does not fire, there was a light window not long before. -/
theorem light_of_not_fires {a : SloAlert K} (ha : a.WellFormed) {c : Counters K} (hc : c.Growing)
    {t : K} (h : ¬ a.fires c t) : ∃ u, t - a.rule.forSeconds < u ∧ u ≤ t ∧
      Covering.Light c.bad c.total a.threshold a.short a.long u := by
  unfold SloAlert.fires Overlap.Sustained at h
  push Not at h
  obtain ⟨u, hu, hut, hexpr⟩ := h
  exact ⟨u, hu, hut, light_of_not_expr ha hc hexpr⟩

/-- **What was spent in silence.** Whatever the traffic and the errors look like: where the
    expression of an alert was never true, no more than the share it asks for was bad, of what was
    counted since a long window before; where it never fired, no more than twice that share was bad
    up to the last `for`. -/
theorem silence_bounds_spending [Archimedean K] (a : SloAlert K) (ha : a ∈ sloAlerts K)
    (c : Counters K) (hc : c.Growing) (s e : K) (hse : s ≤ e) :
    ((∀ t, s ≤ t → t ≤ e → ¬ a.expr c t) →
      c.bad e - c.bad s ≤ a.threshold * (c.total e - c.total (s - a.long))) ∧
    ((∀ t, s ≤ t → t ≤ e → ¬ a.fires c t) →
      c.bad (e - a.rule.forSeconds) - c.bad s ≤
        2 * a.threshold * (c.total e - c.total (s - a.long))) := by
  have hwf := sloAlerts_wellFormed a ha
  constructor
  · intro hsilent
    exact Covering.growth_le hc.bad hc.total hwf.threshold_pos.le hwf.short_pos hse
      fun u hsu hue => light_of_not_expr hwf hc (hsilent u hsu hue)
  · intro hsilent
    rcases le_or_gt s (e - a.rule.forSeconds) with hlast | hlast
    · have hbound := Covering.growth_le_of_often hc.bad hc.total hwf.threshold_pos.le hwf.for_pos
        (for_le_short a ha) hlast fun t hst hte =>
          light_of_not_fires hwf hc (hsilent t hst (by linarith))
      rwa [sub_add_cancel] at hbound
    · -- The stretch is over before `for` is.
      have hlong : 0 < a.long := by linarith [hwf.short_pos, hwf.long_eq]
      have hbad : c.bad (e - a.rule.forSeconds) ≤ c.bad s := hc.bad hlast.le
      have htotal : c.total (s - a.long) ≤ c.total e := hc.total (by linarith)
      calc c.bad (e - a.rule.forSeconds) - c.bad s ≤ 0 := sub_nonpos.mpr hbad
        _ ≤ 2 * a.threshold * (c.total e - c.total (s - a.long)) :=
          mul_nonneg (mul_nonneg zero_le_two hwf.threshold_pos.le) (sub_nonneg.mpr htotal)

theorem halfPercent_pos : 0 < (1 / 200 : ℚ) := by norm_num

theorem halfPercent_le : (1 / 200 : ℚ) ≤ 1 := by norm_num

/-- Half a percent of the requests fail for ten days. -/
def halfPercent : Incident ℚ :=
  { outageOfTenMinutes with
    r := 1 / 200, D := 864000, r_pos := halfPercent_pos, r_le := halfPercent_le }

/-- No ticket is opened, and no more is lost than a ticket would have asked for. -/
theorem silence_bounds_spending_halfPercent :
    halfPercent.counters.bad 864000 - halfPercent.counters.bad 0 ≤
      6 * (1 / 1000) *
        (halfPercent.counters.total 864000 - halfPercent.counters.total (0 - 21600)) := by
  have hmem : (⟨errorBudgetBurnSlow, .availability, 21600, 1800, 6, 1 / 1000⟩ : SloAlert ℚ) ∈
      sloAlerts ℚ := List.mem_cons_of_mem _ List.mem_cons_self
  refine (silence_bounds_spending _ hmem halfPercent.counters
    (halfPercent.growing (by norm_num [halfPercent, outageOfTenMinutes])) 0 864000
    (by norm_num)).1 fun t _ _ => ?_
  have hsince : halfPercent.since ≤ -21600 := by norm_num [halfPercent, outageOfTenMinutes]
  refine (burn_alert_closed_form _ hmem halfPercent hsince).never (.inl ?_) t
  norm_num [halfPercent, outageOfTenMinutes, SloAlert.threshold]

/-! ## Spending -/

/-- What the entry of an alert says, of the alert. -/
structure Promise.Kept (p : Promise K) : Prop where
  /-- When it fires, more than its share of the budget went within a long window, unless there was
      less traffic than the budget is reckoned with. -/
  spent : ∀ (c : Counters K), c.Growing → ∀ t traffic : K,
    traffic * p.alert.long ≤ growth c.total p.alert.long t → p.alert.fires c t →
    p.budgetConsumedAtDetection * p.allowance traffic < growth c.bad p.alert.long t
  /-- In an incident that makes the expression true at some moment, exactly that share has gone when
      it becomes true, however many requests fail; if the alert fires at all it first does `for`
      later, and what goes until then is what fails within `for`. -/
  detection : ∀ i : Incident K, i.since ≤ -p.alert.long → (∃ t, p.alert.expr i.counters t) →
    (∀ t, p.alert.expr i.counters t → p.alert.onset i < t) ∧
    (∀ t, p.alert.onset i < t → t ≤ i.D → p.alert.expr i.counters t) ∧
    i.counters.bad (p.alert.onset i) =
      p.budgetConsumedAtDetection * p.allowance i.traffic ∧
    ((∃ t, p.alert.fires i.counters t) →
      p.alert.fires i.counters (p.alert.onset i + p.alert.rule.forSeconds)) ∧
    (∀ t, p.alert.fires i.counters t → p.alert.onset i + p.alert.rule.forSeconds ≤ t) ∧
    i.counters.bad (p.alert.onset i + p.alert.rule.forSeconds) =
      p.budgetConsumedAtDetection * p.allowance i.traffic +
        i.traffic * i.r * min (p.alert.rule.forSeconds : K) (i.D - p.alert.onset i)
  /-- An incident too small for it leaves some of the budget until the time of exhaustion, and has
      spent no more than all of it then. -/
  exhaustion : ∀ i : Incident K, i.r ≤ p.alert.threshold →
    (∀ t, t < p.timeToExhaustion → i.counters.bad t < p.allowance i.traffic) ∧
    i.counters.bad p.timeToExhaustion ≤ p.allowance i.traffic

/-- The arithmetic of `slo/README.md`. -/
structure Promise.Consistent (p : Promise K) : Prop where
  mem : p.alert ∈ sloAlerts K
  /-- The share of the window that the long window is, burning at that rate. -/
  share : p.budgetConsumedAtDetection * p.window = p.alert.burnRate * p.alert.long
  budget_pos : 0 < p.alert.budget
  burnRate_pos : 0 < p.alert.burnRate
  exhaustion_pos : 0 < p.timeToExhaustion
  /-- Burning at that rate, the budget lasts that long. -/
  exhaustion : p.alert.burnRate * p.timeToExhaustion ≤ p.window

omit [IsStrictOrderedRing K] in
/-- While an incident lasts. -/
theorem Incident.bad_of_le (i : Incident K) {t : K} (ht : 0 ≤ t) (htD : t ≤ i.D) :
    i.counters.bad t = i.traffic * i.r * t := by
  show i.traffic * i.r * Overlap.elapsed i.D t = _
  rw [Overlap.elapsed, min_eq_left htD, max_eq_right ht]

/-- The share of the allowance, in terms of the alert. -/
theorem Promise.Consistent.share_mul_allowance {p : Promise K} (hp : p.Consistent) (traffic : K) :
    p.budgetConsumedAtDetection * p.allowance traffic =
      p.alert.threshold * (traffic * p.alert.long) := by
  unfold Promise.allowance SloAlert.threshold
  linear_combination p.alert.budget * traffic * hp.share

/-- The alert has a positive onset, before the end of an incident that makes its expression true. -/
theorem onset_lt_of_expr {a : SloAlert K} (ha : a ∈ sloAlerts K) {i : Incident K}
    (hsince : i.since ≤ -a.long) (h : ∃ t, a.expr i.counters t) :
    0 < a.onset i ∧ a.onset i < i.D ∧ a.threshold < i.r := by
  have hwf := sloAlerts_wellFormed a ha
  have hlong : 0 < a.long := by linarith [hwf.short_pos, hwf.long_eq]
  obtain ⟨t, ht⟩ := h
  have hlarge : ¬ (i.r ≤ a.threshold ∨ i.D ≤ a.long * a.threshold / i.r) :=
    fun hsmall => (burn_alert_closed_form a ha i hsince).never hsmall t ht
  rw [not_or, not_le, not_le] at hlarge
  exact ⟨div_pos (mul_pos hlong hwf.threshold_pos) i.r_pos, hlarge.2, hlarge.1⟩

theorem Incident.bad_add (i : Incident K) {t d : K} (ht : 0 ≤ t) (htD : t ≤ i.D) (hd : 0 ≤ d) :
    i.counters.bad (t + d) = i.traffic * i.r * t + i.traffic * i.r * min d (i.D - t) := by
  show i.traffic * i.r * Overlap.elapsed i.D (t + d) = _
  have helapsed : Overlap.elapsed i.D (t + d) = t + min d (i.D - t) := by
    unfold Overlap.elapsed
    grind
  rw [helapsed, mul_add]

/-- What an incident too small for the alert has spent by `t`. -/
theorem Promise.Consistent.bad_le {p : Promise K} (hp : p.Consistent) {i : Incident K}
    (hr : i.r ≤ p.alert.threshold) {t : K} (ht : 0 ≤ t) :
    i.counters.bad t ≤ p.alert.budget * (i.traffic * (p.alert.burnRate * t)) := by
  have hwf := sloAlerts_wellFormed p.alert hp.mem
  have hT := i.traffic_pos
  have hθ := hwf.threshold_pos
  have helapsed : Overlap.elapsed i.D t ≤ t := max_le ht (min_le_left t i.D)
  have hnonneg : 0 ≤ Overlap.elapsed i.D t := le_max_left _ _
  calc i.traffic * i.r * Overlap.elapsed i.D t
      ≤ i.traffic * p.alert.threshold * t := by gcongr
    _ = p.alert.budget * (i.traffic * (p.alert.burnRate * t)) := by
        unfold SloAlert.threshold
        ring

/-- An entry whose numbers fit together keeps its promise. -/
theorem Promise.Consistent.kept {p : Promise K} (hcons : p.Consistent) : p.Kept := by
  have hwf := sloAlerts_wellFormed p.alert hcons.mem
  have hlong : 0 < p.alert.long := by linarith [hwf.short_pos, hwf.long_eq]
  refine ⟨?_, ?_, ?_⟩
  · intro c hc t traffic htraffic hfires
    have hexpr : p.alert.expr c t := hfires t (sub_lt_self t hwf.for_pos) le_rfl
    have hheavy := (hc.exceeds_iff p.alert.sli p.alert.threshold hlong t).mp hexpr.1
    rw [hcons.share_mul_allowance]
    exact (mul_le_mul_of_nonneg_left htraffic hwf.threshold_pos.le).trans_lt hheavy
  · intro i hsince hexpr
    -- The incident is one that the alert sees, so the closed form has its interval. What has
    -- been spent at its beginning is the share that the entry names, by the arithmetic of the
    -- file.
    obtain ⟨honset, hlate, hθ⟩ := onset_lt_of_expr hcons.mem hsince hexpr
    have hr := i.r_pos
    have hform := burn_alert_closed_form p.alert hcons.mem i hsince
    have hreset : i.D < i.D + p.alert.short * (1 - p.alert.threshold / i.r) :=
      lt_add_of_pos_right _ (mul_pos hwf.short_pos (sub_pos.mpr ((div_lt_one hr).mpr hθ)))
    have hat : i.traffic * i.r * p.alert.onset i =
        p.budgetConsumedAtDetection * p.allowance i.traffic := by
      rw [hcons.share_mul_allowance, SloAlert.onset]
      field_simp
    refine ⟨fun t ht => ((hform.interval hθ hlate t).mp ht).1, ?_, ?_, ?_, ?_, ?_⟩
    · exact fun t ht htD => (hform.interval hθ hlate t).mpr ⟨ht, htD.trans_lt hreset⟩
    · rw [i.bad_of_le honset.le hlate.le, hat]
    · intro hfires
      obtain ⟨t, ht⟩ := hfires
      obtain ⟨hfirst, hlast⟩ := (hform.firing hθ hlate t).mp ht
      exact (hform.firing hθ hlate _).mpr ⟨le_rfl, hfirst.trans_lt hlast⟩
    · exact fun t ht => ((hform.firing hθ hlate t).mp ht).1
    · rw [i.bad_add honset.le hlate.le hwf.for_pos.le, hat]
  · intro i hr
    have hT := i.traffic_pos
    have hbudget := hcons.budget_pos
    have hlasting := hcons.exhaustion_pos
    have hburn := hcons.burnRate_pos
    have hall : p.alert.budget * (i.traffic * (p.alert.burnRate * p.timeToExhaustion)) ≤
        p.allowance i.traffic := by
      unfold Promise.allowance
      gcongr
      exact hcons.exhaustion
    refine ⟨fun t ht => ?_, (hcons.bad_le hr hlasting.le).trans hall⟩
    refine lt_of_lt_of_le ?_ hall
    rcases le_or_gt t 0 with hneg | hpos
    · have hnone : i.counters.bad t = 0 := by
        show i.traffic * i.r * Overlap.elapsed i.D t = 0
        rw [Overlap.elapsed_of_nonpos _ hneg, mul_zero]
      rw [hnone]
      positivity
    · refine (hcons.bad_le hr hpos.le).trans_lt ?_
      gcongr

end Prometheus
end ObservabilityStack
