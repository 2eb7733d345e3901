import ObservabilityStack.Loadgen.Headroom
import ObservabilityStack.Loadgen.Pacing

/-!
# The dispatcher never bursts

A slot is opened no earlier than the rate allows from the start of the run, and two slots are as
far apart as the rate asks, up to one slot. The rate is the highest of the scenario's phases, or
any above. Stalls are not restricted: what is lost is not made up for.

A generator that is stalled and then catches up sends a burst, and the latencies of a burst are
about the generator and not about the target. That this one does not is a property of its
deadlines: the next one is never in the past. So the bound holds between any two slots, and over
the whole run.
-/

set_option autoImplicit false

namespace ObservabilityStack
namespace Loadgen

open Transition Pacer

/-- **Slots are spaced by the rate**, in every run on a clock. -/
theorem slots_never_burst (g : LoadGenerator) (rate : ℚ)
    (hrate : ∀ phase ∈ g.scenario.phases, phase.rps ≤ rate) (t : ℚ) (as : List TimedAction)
    (c : Timed) (h : Steps (timedNext g) Anywhere (.init t) as c) :
    (iterations (untimed as)).slots <+: (iterations (untimed as)).loop ∧
    (∀ (k : ℕ) (now : ℚ), (iterations (untimed as)).slots[k]? = some now →
      c.state.started + k / rate ≤ now) ∧
    (∀ (j k : ℕ) (now now' : ℚ), j < k → (iterations (untimed as)).loop[j]? = some now →
      (iterations (untimed as)).loop[k]? = some now' → ((k : ℚ) - j - 1) / rate ≤ now' - now) ∧
    ∀ start w, (iterations (untimed as)).slots.countP (fun now => start ≤ now ∧ now ≤ start + w) ≤
      ⌊w * rate⌋₊ + 2 := by
  obtain ⟨first, hfirst⟩ := List.exists_mem_of_ne_nil _ g.scenario.phases_ne
  have hpos : 0 < rate := first.rps_pos.trans_le (hrate first hfirst)
  obtain ⟨ts, hp⟩ := exists_turns (waits_of_timed h)
  have hc := (run_of_timed h).counts
  have hinit := hc.prefix_loop
  -- Two turns are apart by the share of the phase between them, and no phase is faster than
  -- `rate`.
  have hgap : ∀ t ∈ ts, 1 / rate ≤ t.gap := by
    intro t ht
    obtain ⟨phase, hmem, hgap⟩ := hp.gaps t ht
    rw [hgap]
    exact one_div_le_one_div_of_le phase.rps_pos (hrate phase hmem)
  -- So the readings of the loop are spaced, and the slots are the first of them.
  have hspaced : Spaced (1 / rate) (iterations (untimed as)).loop := by
    rw [← hp.times]
    exact hp.turns.spaced hgap
  refine ⟨hinit, ?_, ?_, ?_⟩
  · intro k now hk
    obtain ⟨turn, hturn, rfl⟩ := hp.exists_turn hc hk
    rw [div_eq_mul_one_div]
    exact hp.turns.start_add_le hgap hturn
  · intro j k now now' hjk hj hk
    rw [div_eq_mul_one_div]
    exact hspaced j k now now' hjk hj hk
  · intro start w
    have hcount := (hspaced.sublist (one_div_pos.mpr hpos).le hinit.sublist).countP_le
      (one_div_pos.mpr hpos) start w
    rwa [div_div_eq_mul_div, div_one] at hcount

theorem slots_never_burst_pair :
    ∃ c, Steps (timedNext (.new "http://svc" pairScenario none)) Anywhere (.init 7) pairRun c ∧
      (iterations (untimed pairRun)).loop = [7, 15 / 2, 8] ∧
      ∀ (k : ℕ) (now : ℚ), (iterations (untimed pairRun)).slots[k]? = some now →
        c.state.started + k / 2 ≤ now := by
  have hruns : (exec (timedNext (.new "http://svc" pairScenario none))
      (.init 7) pairRun).isSome := by decide +kernel
  obtain ⟨c, hc⟩ := Option.isSome_iff_exists.mp hruns
  have hrun := steps_of_exec hc
  have hrate : ∀ phase ∈ pairScenario.phases, phase.rps ≤ 2 := by simp [pairScenario, pair]
  have hspaced := slots_never_burst (.new "http://svc" pairScenario none) 2 hrate 7 pairRun c hrun
  exact ⟨c, hrun, by decide +kernel, hspaced.2.1⟩

end Loadgen
end ObservabilityStack
