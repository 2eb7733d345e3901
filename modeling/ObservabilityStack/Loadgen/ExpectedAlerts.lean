import ObservabilityStack.Lib.Accrual
import ObservabilityStack.Loadgen.Catalogue
import ObservabilityStack.Loadgen.Timeline
import ObservabilityStack.Prometheus.Detection
import ObservabilityStack.Prometheus.TrafficDrop

/-!
# A scenario brings about the alerts it names

`expected_alerts` is a promise about another program: that the rules of `alerting.yml` fire while
the scenario runs. Here a scenario is the traffic it sends to a service that was started with it,
and what its faults make of that traffic: the counters accrue at the rates of the phases
(`Scenario.counters`). A phase at the highest rate is an attack in the sense of `Detection`, so
`attack_is_detected` says when it is long enough; what no fault makes bad sets off nothing, and
neither does traffic at one rate.

The chain is long: a phase has a fault, the fault is a share of requests that are bad, the share is
a rate at which a counter accrues, the counter is what an alert looks at. The links are in three
modules, and here are the two between the generator's words and the counters. That a fault of the
service does to a request what the share says is proved against the injector (`Bites`), for each
draw; that draws are as frequent as their probability is the idealisation.
-/

set_option autoImplicit false

namespace ObservabilityStack
namespace Loadgen

open Accrual (accrued)
open Prometheus

/-! ## What a fault does to requests

For one request and one draw, what the injector does is known. The share is the measure of the
draws for which the request is bad. -/

/-- `threshold_seconds` of the latency objective, in milliseconds. -/
def thresholdMs : ℚ := 300

/-- How many of the delays between `delay - jitter` and `delay + jitter` miss the objective. -/
def slowShare (delayMs jitterMs : ℚ) : ℚ :=
  if thresholdMs < delayMs - jitterMs then 1
  else if delayMs + jitterMs ≤ thresholdMs then 0
  else (delayMs + jitterMs - thresholdMs) / (2 * jitterMs)

/-- The share of the requests that are bad while a fault is in force. -/
def Fault.share (fault : Fault) : Sli → ℚ
  | .availability => if fault.kind = .errors then (fault.payload.lookup "ratio").getD 0 else 0
  | .latency =>
      if fault.kind = .latency then
        slowShare ((fault.payload.lookup "delay_ms").getD 0)
          ((fault.payload.lookup "jitter_ms").getD 0)
      else 0

def Phase.share (sli : Sli) (phase : Phase) : ℚ :=
  match phase.fault with
  | none => 0
  | some fault => fault.share sli

/-- A delay misses the objective when the draw is among the last `slowShare` of all draws. -/
theorem slow_iff {faults : SampleApp.FaultInjector} {now u : ℚ} {fault : SampleApp.LatencyFault}
    (hfault : (faults.state now).latency = some fault) (h0 : 0 < u) (h1 : u < 1) :
    thresholdMs / 1000 < faults.nextDelaySeconds now u ↔
      1 - slowShare fault.delayMs fault.jitterMs < u := by
  have hjitter := fault.jitter_nonneg
  unfold SampleApp.FaultInjector.nextDelaySeconds SampleApp.FaultInjector.uniform slowShare
  rw [hfault]
  dsimp only
  rw [apply_ite (thresholdMs / 1000 < ·), div_lt_div_iff_of_pos_right (by norm_num),
    div_lt_div_iff_of_pos_right (by norm_num)]
  rcases hjitter.eq_or_lt with hzero | hpos
  -- Without jitter every request is slow, or none is.
  · rw [if_pos hzero.symm, ← hzero, sub_zero, add_zero]
    split
    · rename_i hslow
      simpa [hslow] using h0
    · rename_i hfast
      simpa [hfast, le_of_not_gt hfast] using h1.le
  · rw [if_neg hpos.ne']
    split
    · rename_i hlow
      constructor
      · intro _
        linarith
      · intro _
        nlinarith
    · split
      · rename_i hhigh
        constructor
        · intro h
          nlinarith
        · intro h
          linarith
      -- The objective is inside the band, and the draw is on one side of it or the other.
      · have hshare : 1 - (fault.delayMs + fault.jitterMs - thresholdMs) / (2 * fault.jitterMs) =
            (thresholdMs - (fault.delayMs - fault.jitterMs)) / (2 * fault.jitterMs) := by
          field_simp
          ring
        rw [hshare, div_lt_iff₀ (by linarith)]
        constructor
        · intro h
          linarith
        · intro h
          linarith

/-- What the service does with a request, at a time and for a draw, when it was told of a fault. -/
def Fault.Bites (fault : Fault) (faults : SampleApp.FaultInjector) (now u : ℚ) : Prop :=
  match fault.kind with
  | .errors => (faults.nextErrorStatus now u).isSome ↔ u < fault.share .availability
  | .latency =>
      thresholdMs / 1000 < faults.nextDelaySeconds now u ↔ 1 - fault.share .latency < u
  | .clear => faults.nextErrorStatus now u = none ∧ faults.nextDelaySeconds now u = 0

/-- The shares are those of the draws. -/
theorem bites_of_holds {fault : Fault} {faults : SampleApp.FaultInjector} {now u : ℚ}
    (h : Holds fault (faults.state now)) (h0 : 0 < u) (h1 : u < 1) : fault.Bites faults now u := by
  unfold Holds at h
  unfold Fault.Bites Fault.share
  cases hkind : fault.kind with
  | latency =>
    rw [hkind] at h
    obtain ⟨armed, hstate, hdelay, hjitter⟩ := h
    dsimp only
    rw [if_pos rfl, hdelay, hjitter]
    exact slow_iff hstate h0 h1
  | errors =>
    rw [hkind] at h
    obtain ⟨armed, hstate, hratio, -⟩ := h
    dsimp only
    rw [if_pos rfl, hratio]
    unfold SampleApp.FaultInjector.nextErrorStatus
    rw [hstate]
    dsimp only
    split
    · rename_i hlt
      exact iff_of_true rfl hlt
    · rename_i hge
      exact iff_of_false Bool.false_ne_true hge
  -- With nothing armed there is neither a delay nor an error status.
  | clear =>
    rw [hkind] at h
    dsimp only
    unfold SampleApp.FaultInjector.nextErrorStatus SampleApp.FaultInjector.nextDelaySeconds
    rw [h]
    exact ⟨rfl, rfl⟩

/-! ## What a scenario leaves in the counters

Two schedules over the same spans, the rate of all requests and that of the bad ones. What an alert
sees of them is then a matter of `Accrual` and of bounds on the rates. -/

namespace Scenario

/-- The lengths of the phases, and the rates something happens at in them. -/
def spans (s : Scenario) (rate : Phase → ℚ) : List (ℚ × ℚ) :=
  s.phases.map fun phase => ((phase.durationSeconds : ℚ), rate phase)

/-- `http_requests_total` of a service that was started with the scenario. -/
def offered (s : Scenario) (t : ℚ) : ℚ := accrued t 0 (s.spans Phase.rps)

/-- All of its requests and the bad ones. -/
def counters (s : Scenario) (sli : Sli) : Counters ℚ where
  total := s.offered
  bad t := accrued t 0 (s.spans fun phase => phase.rps * phase.share sli)

/-- No fault is left to a phase that says nothing about faults. -/
def SelfContained (s : Scenario) : Prop :=
  s.phases.IsChain fun phase next =>
    (∀ fault ∈ phase.fault, fault.kind = .clear) ∨ ∃ fault ∈ next.fault, fault.kind = .clear

variable {s : Scenario} {sli : Sli}

theorem spans_nonneg (s : Scenario) (rate : Phase → ℚ) : ∀ x ∈ s.spans rate, 0 ≤ x.1 := by
  intro x hx
  obtain ⟨phase, -, rfl⟩ := List.mem_map.mp hx
  exact Int.cast_nonneg phase.duration_pos.le

theorem rate_nonneg {rate : Phase → ℚ} (h : ∀ phase ∈ s.phases, 0 ≤ rate phase) :
    ∀ x ∈ s.spans rate, 0 ≤ x.2 := by
  intro x hx
  obtain ⟨phase, hphase, rfl⟩ := List.mem_map.mp hx
  exact h phase hphase

theorem counters_growing (h : ∀ phase ∈ s.phases, 0 ≤ phase.share sli ∧ phase.share sli ≤ 1) :
    (s.counters sli).Growing := by
  constructor
  · exact Accrual.accrued_mono
      (rate_nonneg fun phase hphase => mul_nonneg phase.rps_pos.le (h phase hphase).1) 0
  · intro t u htu
    have hle := Accrual.accrued_sub_le_sub (fun phase : Phase => (phase.durationSeconds : ℚ))
      (fun phase => phase.rps * phase.share sli) Phase.rps
      (fun phase hphase => mul_le_of_le_one_right phase.rps_pos.le (h phase hphase).2) htu 0
    show accrued t 0 (s.spans Phase.rps) - accrued t 0 (s.spans _) ≤
      accrued u 0 (s.spans Phase.rps) - accrued u 0 (s.spans _)
    unfold spans
    linarith

/-- **A phase at the highest rate** is an attack. -/
theorem attack (h : ∀ phase ∈ s.phases, 0 ≤ phase.share sli ∧ phase.share sli ≤ 1) {i : ℕ}
    {phase : Phase} (hi : s.phases[i]? = some phase)
    (hpeak : ∀ other ∈ s.phases, other.rps ≤ phase.rps) (hbad : 0 < phase.share sli) :
    Attack (s.counters sli) phase.rps (phase.share sli) (s.start i) phase.durationSeconds where
  growing := counters_growing h
  traffic_pos := phase.rps_pos
  r_pos := hbad
  r_le := (h phase (List.mem_of_getElem? hi)).2
  most t u htu := by
    refine Accrual.accrued_sub_le (s.spans_nonneg _) phase.rps_pos.le ?_ htu 0
    intro x hx
    obtain ⟨other, hother, rfl⟩ := List.mem_map.mp hx
    exact hpeak other hother
  least t u ht htu hu := by
    have hlengths :
        (s.spans fun phase => phase.rps * phase.share sli).map Prod.fst = s.lengths := by
      unfold spans lengths
      rw [List.map_map]
      rfl
    refine Accrual.le_accrued_sub (i := i) (d := phase.durationSeconds)
      (rate_nonneg fun phase hphase => mul_nonneg phase.rps_pos.le (h phase hphase).1) ?_ htu ?_ ?_
    · unfold spans
      rw [List.getElem?_map, hi]
      rfl
    · rw [hlengths, offset_lengths, zero_add]
      exact ht
    · rw [hlengths, offset_lengths, zero_add]
      exact hu

/-- What no fault makes bad sets off no alert. -/
theorem not_expr_of_share (a : SloAlert ℚ) (ha : a ∈ sloAlerts ℚ)
    (h : ∀ phase ∈ s.phases, phase.share a.sli = 0) (t : ℚ) : ¬ a.expr (s.counters a.sli) t := by
  have hwf := sloAlerts_wellFormed a ha
  have hgrowing : (s.counters a.sli).Growing :=
    counters_growing fun phase hphase => by rw [h phase hphase]; exact ⟨le_rfl, zero_le_one⟩
  have hbad : ∀ u, (s.counters a.sli).bad u = 0 := by
    intro u
    refine Accrual.accrued_eq_zero ?_ 0
    intro x hx
    obtain ⟨phase, hphase, rfl⟩ := List.mem_map.mp hx
    show phase.rps * phase.share a.sli = 0
    rw [h phase hphase, mul_zero]
  intro hexpr
  have hheavy := (hgrowing.exceeds_iff a.sli a.threshold hwf.short_pos t).mp hexpr.2
  have hall : 0 ≤ growth (s.counters a.sli).total a.short t :=
    sub_nonneg.mpr (hgrowing.total (sub_le_self t hwf.short_pos.le))
  unfold growth at hheavy hall
  rw [hbad, hbad, sub_zero] at hheavy
  exact absurd hheavy (not_lt.mpr (mul_nonneg hwf.threshold_pos.le hall))

/-- Traffic at one rate is no drop. -/
theorem not_dropped_of_uniform (rps : ℚ) (h : ∀ phase ∈ s.phases, phase.rps = rps)
    (hrps : 0 ≤ rps) {t : ℚ} (ht : t ≤ s.durationSeconds) :
    ¬ trafficDroppedAlert.expr s.offered t := by
  have hoffered : ∀ u, s.offered u = rps * Overlap.elapsed (s.durationSeconds : ℚ) u := by
    intro u
    unfold offered
    rw [Accrual.accrued_uniform (R := rps) (s.spans_nonneg _), sub_zero]
    · rw [← sum_lengths]
      unfold spans lengths
      rw [List.map_map]
      rfl
    · intro x hx
      obtain ⟨phase, hphase, rfl⟩ := List.mem_map.mp hx
      exact h phase hphase
  have hrate : ∀ w : ℚ, 0 < w →
      rate s.offered w t = rps * (min w (max 0 t) / w) := by
    intro w hw
    rw [← Overlap.overlap_of_le hw.le ht]
    unfold rate Overlap.overlap
    rw [hoffered, hoffered, ← mul_sub, mul_div_assoc]
  intro hexpr
  have hdrop := hexpr.1
  simp only [trafficDroppedAlert, trafficDroppedOver] at hdrop
  rw [hrate 300 (by norm_num), hrate (6 * 3600) (by norm_num)] at hdrop
  have hseen : (0 : ℚ) ≤ max 0 t := le_max_left 0 t
  generalize max 0 t = m at hdrop hseen
  -- The short window is at least as full as the long one.
  have hfull : min (6 * 3600) m / (6 * 3600) ≤ min 300 m / 300 := by
    rw [div_le_div_iff₀ (by norm_num) (by norm_num)]
    rcases le_total m 300 with hm | hm
    · rw [min_eq_right hm, min_eq_right (hm.trans (by norm_num))]
      linarith
    · rw [min_eq_left hm]
      linarith [min_le_left (6 * 3600 : ℚ) m]
  have hmore := mul_le_mul_of_nonneg_left hfull hrps
  have hzero : 0 ≤ rps * (min (6 * 3600) m / (6 * 3600)) :=
    mul_nonneg hrps (div_nonneg (le_min (by norm_num) hseen) (by norm_num))
  linarith

/-- **A phase that is long enough** sets off an alert before the scenario ends. -/
theorem fires_of_phase (a : SloAlert ℚ) (ha : a ∈ sloAlerts ℚ)
    (h : ∀ phase ∈ s.phases, 0 ≤ phase.share a.sli ∧ phase.share a.sli ≤ 1) {i : ℕ}
    {phase : Phase} (hi : s.phases[i]? = some phase)
    (hpeak : ∀ other ∈ s.phases, other.rps ≤ phase.rps) {r : ℚ} (hr : phase.share a.sli = r)
    (hθ : a.threshold < r) (hD : a.long * a.threshold / r < phase.durationSeconds)
    (hreset : a.long * a.threshold / r + a.rule.forSeconds <
      phase.durationSeconds + a.short * (1 - a.threshold / r))
    (hend : s.start i + a.long * a.threshold / r + a.rule.forSeconds ≤ s.durationSeconds) :
    ∃ t : ℚ, 0 ≤ t ∧ t ≤ s.durationSeconds ∧ a.fires (s.counters a.sli) t := by
  subst hr
  have hwf := sloAlerts_wellFormed a ha
  have hbad : 0 < phase.share a.sli := hwf.threshold_pos.trans hθ
  have hlong : 0 < a.long := by linarith [hwf.short_pos, hwf.long_eq]
  have hstart : (0 : ℚ) ≤ s.start i := by
    rw [← offset_lengths]
    exact Spans.offset_nonneg lengths_nonneg
  have hlevel : 0 < a.long * a.threshold / phase.share a.sli :=
    div_pos (mul_pos hlong hwf.threshold_pos) hbad
  refine ⟨_, by linarith [hwf.for_pos], hend, ?_⟩
  exact attack_is_detected a ha _ _ _ _ _ (attack h hi hpeak hbad) hθ hD _ le_rfl (by linarith)

/-! ## The catalogue

Scenario by scenario, each alert that is named and each that is not. The arithmetic of the windows
and the phases is done here, at the numbers of the file. -/

/-- What `expected_alerts` says, and what it rests on. -/
structure KeepsPromise (s : Scenario) : Prop where
  /-- The service takes every fault, whatever it was told before. -/
  armed : ∀ phase ∈ s.phases, ∀ fault, phase.fault = some fault → ∀ faults now viewed,
    (SampleApp.handleFaults .declared faults now viewed fault.method fault.path fault.payload).1 =
      200
  /-- Until the phase is over it bites at its share, and it is not left to a later phase. -/
  bites : ∀ phase ∈ s.phases, ∀ fault, phase.fault = some fault →
    ∀ (faults : SampleApp.FaultInjector) (now viewed t u : ℚ),
    t < now + phase.durationSeconds → 0 < u → u < 1 → fault.Bites
      (SampleApp.handleFaults .declared faults now viewed fault.method fault.path fault.payload).2
      t u
  contained : s.SelfContained
  /-- While the scenario runs, the burn-rate alerts it names fire and the others do not. -/
  burns : ∀ a ∈ sloAlerts ℚ,
    (∃ t : ℚ, 0 ≤ t ∧ t ≤ s.durationSeconds ∧ a.fires (s.counters a.sli) t) ↔
      a.rule.alert ∈ s.expectedAlerts
  drops : (∃ t : ℚ, 0 ≤ t ∧ t ≤ s.durationSeconds ∧
    trafficDroppedAlert.fires s.offered t) ↔ trafficDropped.alert ∈ s.expectedAlerts

/-- An alert that is not named and has nothing to burn. -/
theorem burns_of_share {a : SloAlert ℚ} (ha : a ∈ sloAlerts ℚ)
    (h : ∀ phase ∈ s.phases, phase.share a.sli = 0) (hname : a.rule.alert ∉ s.expectedAlerts) :
    (∃ t : ℚ, 0 ≤ t ∧ t ≤ s.durationSeconds ∧ a.fires (s.counters a.sli) t) ↔
      a.rule.alert ∈ s.expectedAlerts := by
  refine iff_of_false ?_ hname
  intro hfires
  obtain ⟨t, -, -, hfires⟩ := hfires
  exact not_expr_of_share a ha h t
    (hfires t (sub_lt_self t (sloAlerts_wellFormed a ha).for_pos) le_rfl)

/-- Traffic at one rate, of a scenario that does not name the alert. -/
theorem drops_of_uniform (rps : ℚ) (h : ∀ phase ∈ s.phases, phase.rps = rps) (hrps : 0 ≤ rps)
    (hname : trafficDropped.alert ∉ s.expectedAlerts) :
    (∃ t : ℚ, 0 ≤ t ∧ t ≤ s.durationSeconds ∧ trafficDroppedAlert.fires s.offered t) ↔
      trafficDropped.alert ∈ s.expectedAlerts := by
  refine iff_of_false ?_ hname
  intro hfires
  obtain ⟨t, -, ht, hfires⟩ := hfires
  refine not_dropped_of_uniform rps h hrps ht (hfires t (sub_lt_self t ?_) le_rfl)
  norm_num [trafficDroppedAlert, trafficDroppedOver, trafficDropped]

@[simp] theorem share_clearing (sli : Sli) : clearing.share sli = 0 := by
  cases sli <;> rfl

@[simp] theorem share_bursting : bursting.share .availability = 35 / 100 := rfl

@[simp] theorem share_bursting_latency : bursting.share .latency = 0 := rfl

@[simp] theorem share_spiking : spiking.share .latency = 1 := by decide +kernel

@[simp] theorem share_spiking_availability : spiking.share .availability = 0 := rfl

/-- The traffic after the collapse. -/
theorem offered_trafficDrop {t : ℚ} (h : 1200 ≤ t) (ht : t ≤ 3000) :
    trafficDrop.offered t = 30000 + 2 / 10 * (t - 1200) := by
  have hbefore : Overlap.elapsed (1200 : ℚ) t = 1200 := by
    rw [Overlap.elapsed, min_eq_right h, max_eq_right (by norm_num)]
  have hafter : Overlap.elapsed (1800 : ℚ) (t - 1200) = t - 1200 := by
    rw [Overlap.elapsed, min_eq_left (by linarith), max_eq_right (by linarith)]
  simp only [offered, spans, trafficDrop, List.map_cons, List.map_nil, accrued, Int.cast_ofNat,
    sub_zero, zero_add, add_zero, hbefore, hafter]
  norm_num

theorem offered_of_nonpos {t : ℚ} (ht : t ≤ 0) : trafficDrop.offered t = 0 := by
  simp only [offered, spans, trafficDrop, List.map_cons, List.map_nil, accrued, Int.cast_ofNat,
    sub_zero, zero_add, add_zero]
  rw [Overlap.elapsed_of_nonpos _ ht, Overlap.elapsed_of_nonpos _ (by linarith)]
  norm_num

/-- A quarter of an hour after the collapse. -/
theorem trafficDrop_fires : trafficDroppedAlert.fires trafficDrop.offered 2100 := by
  intro u hu hut
  have hlate : 1500 < u := by
    have : (2100 : ℚ) - 600 < u := hu
    linarith
  have hshort : rate trafficDrop.offered 300 u = 2 / 10 := by
    unfold rate
    rw [offered_trafficDrop (by linarith) (by linarith),
      offered_trafficDrop (by linarith) (by linarith)]
    ring
  have hlong : rate trafficDrop.offered (6 * 3600) u =
      (30000 + 2 / 10 * (u - 1200)) / (6 * 3600) := by
    unfold rate
    rw [offered_trafficDrop (by linarith) (by linarith), offered_of_nonpos (by linarith), sub_zero]
  refine ⟨?_, ?_⟩
  · show rate trafficDrop.offered 300 u < 1 / 4 * rate trafficDrop.offered (6 * 3600) u
    rw [hshort, hlong]
    linarith
  · show 1 < rate trafficDrop.offered (6 * 3600) u
    rw [hlong]
    linarith

end Scenario

open Scenario

theorem mem_sloAlerts {a : SloAlert ℚ} : a ∈ sloAlerts ℚ ↔
    a = ⟨errorBudgetBurnFast, .availability, 3600, 300, 144 / 10, 1 / 1000⟩ ∨
    a = ⟨errorBudgetBurnSlow, .availability, 21600, 1800, 6, 1 / 1000⟩ ∨
    a = ⟨latencyBudgetBurnFast, .latency, 3600, 300, 144 / 10, 1 / 100⟩ ∨
    a = ⟨latencyBudgetBurnSlow, .latency, 21600, 1800, 6, 1 / 100⟩ := by
  simp [sloAlerts]

theorem burns_normal (a : SloAlert ℚ) (ha : a ∈ sloAlerts ℚ) :
    (∃ t : ℚ, 0 ≤ t ∧ t ≤ normal.durationSeconds ∧ a.fires (normal.counters a.sli) t) ↔
      a.rule.alert ∈ normal.expectedAlerts :=
  burns_of_share ha (by simp [normal, Phase.share]) (by simp [normal])

theorem burns_trafficDrop (a : SloAlert ℚ) (ha : a ∈ sloAlerts ℚ) :
    (∃ t : ℚ, 0 ≤ t ∧ t ≤ trafficDrop.durationSeconds ∧ a.fires (trafficDrop.counters a.sli) t) ↔
      a.rule.alert ∈ trafficDrop.expectedAlerts := by
  refine burns_of_share ha (by simp [trafficDrop, Phase.share]) ?_
  rcases mem_sloAlerts.mp ha with rfl | rfl | rfl | rfl <;> decide

theorem burns_errorBurst (a : SloAlert ℚ) (ha : a ∈ sloAlerts ℚ) :
    (∃ t : ℚ, 0 ≤ t ∧ t ≤ errorBurst.durationSeconds ∧ a.fires (errorBurst.counters a.sli) t) ↔
      a.rule.alert ∈ errorBurst.expectedAlerts := by
  have hshares : ∀ phase ∈ errorBurst.phases,
      0 ≤ phase.share .availability ∧ phase.share .availability ≤ 1 := by
    norm_num [errorBurst, Phase.share]
  have hquiet : ∀ phase ∈ errorBurst.phases, phase.share .latency = 0 := by
    simp [errorBurst, Phase.share]
  have hpeak : ∀ phase ∈ errorBurst.phases, phase.rps ≤ 20 := by simp [errorBurst]
  rcases mem_sloAlerts.mp ha with rfl | rfl | rfl | rfl
  · refine iff_of_true (fires_of_phase _ ha hshares (i := 1) rfl hpeak share_bursting ?_ ?_ ?_ ?_)
      (by decide)
    all_goals norm_num [SloAlert.threshold, errorBudgetBurnFast, start, durationSeconds, errorBurst,
      baselineSeconds]
  · refine iff_of_true (fires_of_phase _ ha hshares (i := 1) rfl hpeak share_bursting ?_ ?_ ?_ ?_)
      (by decide)
    all_goals norm_num [SloAlert.threshold, errorBudgetBurnSlow, start, durationSeconds, errorBurst,
      baselineSeconds]
  · exact burns_of_share ha hquiet (by decide)
  · exact burns_of_share ha hquiet (by decide)

theorem burns_latencySpike (a : SloAlert ℚ) (ha : a ∈ sloAlerts ℚ) :
    (∃ t : ℚ, 0 ≤ t ∧ t ≤ latencySpike.durationSeconds ∧
      a.fires (latencySpike.counters a.sli) t) ↔ a.rule.alert ∈ latencySpike.expectedAlerts := by
  have hshares : ∀ phase ∈ latencySpike.phases,
      0 ≤ phase.share .latency ∧ phase.share .latency ≤ 1 := by
    norm_num [latencySpike, Phase.share]
  have hquiet : ∀ phase ∈ latencySpike.phases, phase.share .availability = 0 := by
    simp [latencySpike, Phase.share]
  have hpeak : ∀ phase ∈ latencySpike.phases, phase.rps ≤ 10 := by simp [latencySpike]
  rcases mem_sloAlerts.mp ha with rfl | rfl | rfl | rfl
  · exact burns_of_share ha hquiet (by decide)
  · exact burns_of_share ha hquiet (by decide)
  · refine iff_of_true (fires_of_phase _ ha hshares (i := 1) rfl hpeak share_spiking ?_ ?_ ?_ ?_)
      (by decide)
    all_goals norm_num [SloAlert.threshold, latencyBudgetBurnFast, start, durationSeconds,
      latencySpike, baselineSeconds]
  · refine iff_of_true (fires_of_phase _ ha hshares (i := 1) rfl hpeak share_spiking ?_ ?_ ?_ ?_)
      (by decide)
    all_goals norm_num [SloAlert.threshold, latencyBudgetBurnSlow, start, durationSeconds,
      latencySpike, baselineSeconds]

/-- **Every scenario keeps its promise.** -/
theorem scenarios_keep_promise (s : Scenario) (hs : s ∈ scenarios.values) : KeepsPromise s := by
  refine ⟨fun phase hphase fault hfault => scenarios_armed hs hphase hfault, ?_, ?_, ?_, ?_⟩
  · intro phase hphase fault hfault faults now viewed t u ht h0 h1
    have hok := scenarios_armed hs hphase hfault faults now viewed
    exact bites_of_holds (inForce_of_armed (hok.trans_lt (by decide))
      (scenarios_faultsOutlast hs phase hphase fault hfault) t ht) h0 h1
  all_goals rcases mem_scenarios.mp hs with rfl | rfl | rfl | rfl
  · simp [SelfContained, normal]
  · simp [SelfContained, errorBurst, clearing]
  · simp [SelfContained, latencySpike, clearing]
  · simp [SelfContained, trafficDrop, clearing]
  · exact burns_normal
  · exact burns_errorBurst
  · exact burns_latencySpike
  · exact burns_trafficDrop
  · exact drops_of_uniform 20 (by simp [normal]) (by norm_num) (by decide)
  · exact drops_of_uniform 20 (by simp [errorBurst]) (by norm_num) (by decide)
  · exact drops_of_uniform 10 (by simp [latencySpike]) (by norm_num) (by decide)
  · refine iff_of_true ⟨2100, by norm_num, ?_, trafficDrop_fires⟩ (by decide)
    norm_num [durationSeconds, trafficDrop]

theorem scenarios_keep_promise_latencySpike : KeepsPromise latencySpike :=
  scenarios_keep_promise _ (mem_scenarios.mpr (.inr (.inr (.inl rfl))))

end Loadgen
end ObservabilityStack
