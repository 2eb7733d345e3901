import ObservabilityStack.SampleApp.Faults
import Mathlib.Tactic.Ring

/-!
# The cap on injected latency

`inject_latency` refuses a delay above `MAX_LATENCY_MS` and a jitter above the delay. A draw is
from the band `delay - jitter` to `delay + jitter`, and nothing bounds its upper end: the two
checks allow a delay of twice the cap. The cap is kept exactly while the fault in force has a
band that ends below it.

The cap is a promise to whoever experiments with the service, and it is checked where the fault is
injected, on the delay alone. The result says for which faults that check is enough. It is stated
of a draw at any moment of any history, since the fault in force is all that a draw depends on.
-/

set_option autoImplicit false

namespace ObservabilityStack
namespace SampleApp
namespace FaultInjector

/-- Whatever is drawn, the delay at that time is neither negative nor above the cap. -/
def Capped (s : FaultInjector) (t : ℚ) : Prop :=
  ∀ u, 0 ≤ u → u ≤ 1 →
    0 ≤ s.nextDelaySeconds t u ∧ s.nextDelaySeconds t u ≤ (maxLatencyMs : ℚ) / 1000

/-- The largest draw is the upper end of the band. -/
theorem nextDelaySeconds_one {s : FaultInjector} {t : ℚ} {fault : LatencyFault}
    (hfault : (s.state t).latency = some fault) :
    s.nextDelaySeconds t 1 = (fault.delayMs + fault.jitterMs) / 1000 := by
  unfold nextDelaySeconds
  rw [hfault]
  dsimp only
  split
  · rename_i hzero
    rw [hzero, add_zero]
  · unfold uniform
    ring

theorem nextDelaySeconds_of_none {s : FaultInjector} {t u : ℚ}
    (hnone : (s.state t).latency = none) : s.nextDelaySeconds t u = 0 := by
  unfold nextDelaySeconds
  rw [hnone]

theorem capped_iff {s : FaultInjector} {t : ℚ} :
    s.Capped t ↔ ∀ fault, (s.state t).latency = some fault →
      fault.delayMs + fault.jitterMs ≤ maxLatencyMs := by
  constructor
  · intro h fault hfault
    obtain ⟨-, hle⟩ := h 1 zero_le_one le_rfl
    rw [nextDelaySeconds_one hfault] at hle
    linarith
  · intro h u h0 h1
    cases hlatency : (s.state t).latency with
    | none =>
      rw [nextDelaySeconds_of_none hlatency]
      exact ⟨le_rfl, div_nonneg (Nat.cast_nonneg _) (by norm_num)⟩
    | some fault =>
      obtain ⟨hlow, hhigh⟩ := nextDelaySeconds_mem hlatency h0 h1
      have hj := fault.jitter_le
      have hband := h fault hlatency
      constructor
      · linarith
      · linarith

/-- **Injected latency respects its cap exactly while the band of the fault in force does.** -/
theorem injected_latency_capped_iff (history : List Event) :
    (∀ t, (run history).Capped t ↔
      ∀ fault, LastInjected Event.InjectsLatency history fault → t < fault.expiresAt →
        fault.delayMs + fault.jitterMs ≤ maxLatencyMs) ∧
    ((∀ e ∈ history, ∀ fault, e.InjectsLatency fault →
        fault.delayMs + fault.jitterMs ≤ maxLatencyMs) →
      ∀ before, before <+: history → ∀ t, (run before).Capped t) := by
  have hiff : ∀ (before : List Event) (t : ℚ), (run before).Capped t ↔
      ∀ fault, LastInjected Event.InjectsLatency before fault → t < fault.expiresAt →
        fault.delayMs + fault.jitterMs ≤ maxLatencyMs := by
    intro before t
    rw [capped_iff]
    apply forall_congr'
    intro fault
    rw [state_latency_run, and_imp]
  refine ⟨hiff history, ?_⟩
  intro hall before hbefore t
  rw [hiff]
  intro fault hlast _
  -- The fault in force was injected by one of the calls.
  obtain ⟨_, e, _, hsplit, hinj, -⟩ := hlast
  have he : e ∈ before := by simp [hsplit]
  exact hall e (hbefore.subset he) fault hinj

/-- The longest delay that is accepted, with as much jitter. -/
def widest : List Event := [⟨0, .injectLatency 10000 10000 60⟩]

theorem latency_of_twenty_seconds : ¬ ∀ history t, (run history).Capped t := by
  intro h
  have hle := (h widest 0 1 zero_le_one le_rfl).2
  exact absurd hle (by decide +kernel)

end FaultInjector
end SampleApp
end ObservabilityStack
