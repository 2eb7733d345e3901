import ObservabilityStack.Lib.Dict
import ObservabilityStack.Loadgen.Incident

/-!
# `SCENARIOS`

The four timelines, as `loadgen/scenarios.py` writes them. Whatever the service was told before, it
accepts every fault of theirs (`scenarios_armed`), and each is armed for at least as long as its
phase lasts (`scenarios_faultsOutlast`), which is what `incident_lasts` asks of a scenario.

The numbers are those of the file, down to the time to live of each fault. They are the only place
at which the results about scenarios meet a scenario. Everything before is about any timeline, so a
fifth one would need its own entry here and the two checks of this module.

What a fault's payload means is decided by the service, so this is also the place where the two
programs are compared: the fields that the generator puts into a payload are read with the defaults
and bounds of the fault interface.
-/

set_option autoImplicit false

namespace ObservabilityStack
namespace Loadgen

open SampleApp (FaultInjector Validation handleFaults)

/-- `_BASELINE_SECONDS`. -/
def baselineSeconds : ℤ := 300

theorem baselineSeconds_pos : 0 < baselineSeconds := by decide

theorem ten_pos : 0 < (10 : ℚ) := by norm_num

def clearing : Fault := ⟨.clear, []⟩

/-- A third of the API requests fail. -/
def bursting : Fault :=
  ⟨.errors, [("ratio", 35 / 100), ("status_code", 503), ("ttl_seconds", 1500)]⟩

/-- Every API request gains 700 ± 200 ms. -/
def spiking : Fault := ⟨.latency, [("delay_ms", 700), ("jitter_ms", 200), ("ttl_seconds", 1800)]⟩

namespace Scenario

def normal : Scenario where
  name := "normal"
  description :=
    "Steady healthy traffic. Used to establish the baseline every other scenario is " ++
    "compared against, and to confirm the stack is silent when nothing is wrong."
  phases := [⟨0, "steady", 1800, 20, none, by norm_num, by norm_num⟩]
  expectedAlerts := []
  phases_ne := by simp
  ref_inj := by simp

def errorBurst : Scenario where
  name := "error-burst"
  description :=
    "35% of API requests start failing with 503. At a 0.1% error budget that is a " ++
    "350x burn rate, so both burn-rate windows cross their thresholds within minutes."
  phases :=
    [⟨0, "baseline", baselineSeconds, 20, some clearing, baselineSeconds_pos, by norm_num⟩,
     ⟨1, "burst", 1500, 20, some bursting, by norm_num, by norm_num⟩,
     ⟨2, "recovery", 600, 20, some clearing, by norm_num, by norm_num⟩]
  expectedAlerts := ["ErrorBudgetBurnFast", "ErrorBudgetBurnSlow"]
  phases_ne := by simp
  ref_inj := by simp

def latencySpike : Scenario where
  name := "latency-spike"
  description :=
    "Every API request gains 700 +/- 200 ms, putting 100% of them past the 300 ms " ++
    "objective. The 5m window saturates immediately; the 1h window needs about nine minutes of " ++
    "it before the page is justified."
  phases :=
    [⟨0, "baseline", baselineSeconds, 10, some clearing, baselineSeconds_pos, ten_pos⟩,
     ⟨1, "spike", 1800, 10, some spiking, by norm_num, ten_pos⟩,
     ⟨2, "recovery", 600, 10, some clearing, by norm_num, ten_pos⟩]
  expectedAlerts := ["LatencyBudgetBurnFast", "LatencyBudgetBurnSlow"]
  phases_ne := by simp
  ref_inj := by simp

def trafficDrop : Scenario where
  name := "traffic-drop"
  description :=
    "Traffic collapses from 25 req/s to 0.2 req/s with nothing failing and nothing " ++
    "slow. Every ratio-based alert stays silent because the denominator disappeared along with " ++
    "the numerator; only TrafficDropped notices."
  phases :=
    [⟨0, "baseline", 1200, 25, some clearing, by norm_num, by norm_num⟩,
     ⟨1, "collapse", 1800, 2 / 10, none, by norm_num, by norm_num⟩]
  expectedAlerts := ["TrafficDropped"]
  phases_ne := by simp
  ref_inj := by simp

end Scenario

/-- `SCENARIOS`. -/
def scenarios : Dict String Scenario where
  entries := [("normal", .normal), ("error-burst", .errorBurst), ("latency-spike", .latencySpike),
    ("traffic-drop", .trafficDrop)]
  nodup := by decide

/-- The catalogue has these four, and no other. -/
theorem mem_scenarios {s : Scenario} : s ∈ scenarios.values ↔
    s = .normal ∨ s = .errorBurst ∨ s = .latencySpike ∨ s = .trafficDrop := by
  simp [scenarios, Dict.values]

/-- The faults of the catalogue. -/
theorem fault_mem {s : Scenario} (hs : s ∈ scenarios.values) {phase : Phase}
    (hphase : phase ∈ s.phases) {fault : Fault} (hfault : phase.fault = some fault) :
    fault = clearing ∨ fault = bursting ∧ phase.durationSeconds = 1500 ∨
      fault = spiking ∧ phase.durationSeconds = 1800 := by
  rcases mem_scenarios.mp hs with rfl | rfl | rfl | rfl
  all_goals
    simp only [Scenario.normal, Scenario.errorBurst, Scenario.latencySpike, Scenario.trafficDrop,
      List.mem_cons, List.not_mem_nil, or_false] at hphase
  · subst hphase
    cases hfault
  · rcases hphase with rfl | rfl | rfl <;> cases hfault
    · exact .inl rfl
    · exact .inr (.inl ⟨rfl, rfl⟩)
    · exact .inl rfl
  · rcases hphase with rfl | rfl | rfl <;> cases hfault
    · exact .inl rfl
    · exact .inr (.inr ⟨rfl, rfl⟩)
    · exact .inl rfl
  · rcases hphase with rfl | rfl <;> cases hfault
    exact .inl rfl

/-- A fault outlives its phase. -/
theorem scenarios_faultsOutlast {s : Scenario} (hs : s ∈ scenarios.values) : s.FaultsOutlast := by
  intro phase hphase fault hfault hkind
  rcases fault_mem hs hphase hfault with rfl | ⟨rfl, hduration⟩ | ⟨rfl, hduration⟩
  · exact absurd rfl hkind
  · exact ⟨1500, by decide, hduration.le⟩
  · exact ⟨1800, by decide, hduration.le⟩

section Armed

variable {faults : FaultInjector} {now viewed : ℚ} {body : SampleApp.Body}

/-- What the declarations let through, the injector takes. -/
theorem status_errors {payload : SampleApp.ErrorFaultRequest}
    (h : Validation.declared.errors body = some payload) :
    (handleFaults .declared faults now viewed "POST" "/faults/errors" body).1 = 200 := by
  simp only [handleFaults, h, SampleApp.setErrorFault]
  have haccepts : SampleApp.AcceptsErrors payload.ratio payload.statusCode payload.ttlSeconds := by
    exact ⟨payload.ratio_mem.1, payload.ratio_mem.2, by exact_mod_cast payload.status_mem.1,
      by exact_mod_cast payload.status_mem.2, by exact_mod_cast payload.ttl_mem⟩
  obtain ⟨r, hr⟩ : ∃ r, faults.injectErrors now _ _ _ = .ok r :=
    FaultInjector.injectErrors_ok_iff.mpr haccepts
  rw [hr]
  rfl

theorem status_latency {payload : SampleApp.LatencyFaultRequest}
    (h : Validation.declared.latency body = some payload)
    (hle : payload.jitterMs ≤ payload.delayMs) :
    (handleFaults .declared faults now viewed "POST" "/faults/latency" body).1 = 200 := by
  simp only [handleFaults, h, SampleApp.setLatencyFault]
  have haccepts :
      SampleApp.AcceptsLatency payload.delayMs payload.jitterMs payload.ttlSeconds := by
    exact ⟨by exact_mod_cast payload.jitter_mem.1, by exact_mod_cast hle,
      by exact_mod_cast payload.delay_mem.2, by exact_mod_cast payload.ttl_mem⟩
  obtain ⟨r, hr⟩ : ∃ r, faults.injectLatency now _ _ _ = .ok r :=
    FaultInjector.injectLatency_ok_iff.mpr haccepts
  rw [hr]
  rfl

end Armed

/-- The service accepts every fault of the catalogue, whatever it was told before. -/
theorem scenarios_armed {s : Scenario} (hs : s ∈ scenarios.values) {phase : Phase}
    (hphase : phase ∈ s.phases) {fault : Fault} (hfault : phase.fault = some fault)
    (faults : FaultInjector) (now viewed : ℚ) :
    (handleFaults .declared faults now viewed fault.method fault.path fault.payload).1 = 200 := by
  rcases fault_mem hs hphase hfault with rfl | ⟨rfl, -⟩ | ⟨rfl, -⟩
  · rfl
  · have hvalid : (Validation.declared.errors bursting.payload).isSome := by decide +kernel
    obtain ⟨payload, hpayload⟩ := Option.isSome_iff_exists.mp hvalid
    exact status_errors hpayload
  · have hvalid : (Validation.declared.latency spiking.payload).isSome := by decide +kernel
    obtain ⟨payload, hpayload⟩ := Option.isSome_iff_exists.mp hvalid
    obtain ⟨hdelay, hjitter, -⟩ := Validation.declared.latency_eq _ _ hpayload
    have hdelay' : (700 : ℚ) = payload.delayMs := Option.some.inj hdelay
    have hjitter' : (200 : ℚ) = payload.jitterMs := hjitter
    exact status_latency hpayload (by
      have : (payload.jitterMs : ℚ) ≤ payload.delayMs := by linarith
      exact_mod_cast this)

end Loadgen
end ObservabilityStack
