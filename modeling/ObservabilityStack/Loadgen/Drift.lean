import ObservabilityStack.Loadgen.Headroom
import ObservabilityStack.Loadgen.Pacing
import ObservabilityStack.Loadgen.Timeline

/-!
# Pacing does not drift

One phase, and iterations that are late by less than a slot, in whatever pattern: the deadlines
are where they would be if none were late, and the scenario ends with all of its slots, or one
short. The one that may be missing is a last slot that is due before the end and read after it.

A loop that slept for an interval after each slot would drift by the time each iteration takes.
This one computes the next deadline from the last one, so lateness does not add up. It is made up
for as long as it is less than a slot; one that is longer moves the deadlines, and that is a case
in which the pacing is meant to drift, and is left out here.

The result is put together from `Lib/Pacer`, which knows the deadlines of a punctual loop, and the
simulation, which says that the dispatcher is one. What has to be added is the end of the scenario.
-/

set_option autoImplicit false

namespace ObservabilityStack
namespace Loadgen

open Transition Pacer

/-- An iteration begins between its deadline and the next. -/
def OnSchedule (phase : Phase) (s : State) : Action → Prop
  | .dispatcher (.readNow now) => s.nextSlot ≤ now ∧ now ≤ s.nextSlot + 1 / phase.rps
  | _ => True

instance (phase : Phase) (s : State) (a : Action) : Decidable (OnSchedule phase s a) := by
  unfold OnSchedule
  split <;> infer_instance

/-- The scenario came to its end: an iteration read a time at which no phase is selected. -/
def Ended (g : LoadGenerator) (as : List Action) (s : State) : Prop :=
  ∃ now ∈ (iterations as).loop, g.scenario.phaseAt (now - s.started) = .ok none

section single

variable {g : LoadGenerator} {phase : Phase} {as : List Action} {s : State} {elapsed : ℚ}

theorem durationSeconds_single (hphases : g.scenario.phases = [phase]) :
    g.scenario.durationSeconds = phase.durationSeconds := by
  simp [Scenario.durationSeconds, hphases]

theorem le_of_phaseAt_none (hphases : g.scenario.phases = [phase])
    (h : g.scenario.phaseAt elapsed = .ok none) : phase.durationSeconds ≤ elapsed := by
  have hover := (Scenario.phaseAt_eq_none_iff (Scenario.nonneg_of_phaseAt h)).mp h
  rwa [durationSeconds_single hphases] at hover

/-- The iterations are turns, a slot apart, and none is late by more. -/
theorem exists_punctual (hphases : g.scenario.phases = [phase])
    (h : Steps (next g) (OnSchedule phase) .init as s) :
    ∃ ts, Paces g Punctual (iterations as) s ts ∧ ∀ t ∈ ts, t.gap = 1 / phase.rps := by
  have hturn : ∀ s a, OnSchedule phase s a → OnTurn g Punctual s a := by
    intro s a hok
    unfold OnSchedule at hok
    unfold OnTurn
    split
    · intro phase' hmem
      rw [hphases, List.mem_singleton] at hmem
      rw [hmem]
      exact hok
    · trivial
  obtain ⟨ts, hp⟩ := exists_turns (h.weaken hturn)
  refine ⟨ts, hp, ?_⟩
  intro t ht
  obtain ⟨phase', hmem, hgap⟩ := hp.gaps t ht
  rw [hphases, List.mem_singleton] at hmem
  rw [hgap, hmem]

theorem Paces.due_eq {ts : List (Turn ℚ)} (hp : Paces g Punctual (iterations as) s ts)
    (hgap : ∀ t ∈ ts, t.gap = 1 / phase.rps) {d : ℚ} (hd : d ∈ s.due) :
    d = s.started + (iterations as).loop.length / phase.rps := by
  rw [hp.due d hd, deadline_eq hp.turns hgap, ← hp.times, List.length_map, mul_one_div]

/-- All iterations but the last opened a slot. -/
theorem loop_of_ended (hc : Counts g (iterations as) s) (h : Ended g as s) :
    ∃ now, (iterations as).loop = (iterations as).slots ++ [now] ∧
      g.scenario.phaseAt (now - s.started) = .ok none := by
  obtain ⟨now, hmem, hnone⟩ := h
  have hnot : ¬ Selects g s now := by
    intro ⟨phase, hat⟩
    cases hnone.symm.trans hat
  have hagrees := hc.agrees
  unfold Iterations.Agrees at hagrees
  cases hpc : s.pc with
  | entering =>
    simp only [hpc] at hagrees
    rw [hagrees.1] at hmem
    cases hmem
  -- Inside a slot the last reading selected a phase, and so did the ones before it.
  | arming phase fault now' | opening phase now' | dropping phase now' =>
    simp only [hpc] at hagrees
    obtain ⟨hloop, hsel⟩ := hagrees
    rw [hloop, List.mem_append, List.mem_singleton] at hmem
    rcases hmem with hmem | rfl
    · exact absurd (hc.selected now hmem) hnot
    · exact absurd hsel hnot
  | submitting | looping | selecting | pacing | sleeping =>
    simp only [hpc] at hagrees
    exact absurd (hc.selected now (hagrees ▸ hmem)) hnot
  -- The loop is over: at most one reading is not a slot, and it is the one that found no phase.
  | stopping | unwinding | returned | raised =>
    simp only [hpc] at hagrees
    obtain ⟨extra, hloop, hone⟩ := hagrees
    rw [hloop, List.mem_append] at hmem
    have hextra : now ∈ extra := hmem.resolve_left fun hmem => hnot (hc.selected now hmem)
    have hlast : extra = [now] := by
      match extra, hone, hextra with
      | [x], _, hx => rw [List.mem_singleton.mp hx]
    exact ⟨now, hlast ▸ hloop, hnone⟩

/-- The last slot was due before the end. -/
theorem opened_le_ceil (hphases : g.scenario.phases = [phase]) (hc : Counts g (iterations as) s)
    {ts : List (Turn ℚ)} (hp : Paces g Punctual (iterations as) s ts)
    (hgap : ∀ t ∈ ts, t.gap = 1 / phase.rps) :
    s.opened ≤ ⌈phase.durationSeconds * phase.rps⌉₊ := by
  cases hopened : s.opened with
  | zero => exact Nat.zero_le _
  | succ n =>
    have hlt : n < (iterations as).slots.length := by
      rw [hc.length, hopened]
      exact Nat.lt_succ_self n
    have hslot : (iterations as).slots[n]? = some (iterations as).slots[n] :=
      List.getElem?_eq_getElem hlt
    obtain ⟨found, hat⟩ := hc.selected _ (List.getElem_mem hlt)
    have hbefore := Scenario.lt_durationSeconds hat
    rw [durationSeconds_single hphases] at hbefore
    obtain ⟨turn, hturn, htime⟩ := hp.exists_turn hc hslot
    have hdue : s.started + n * (1 / phase.rps) ≤ turn.time :=
      (hp.turns.weaken fun _ _ hok => hok.1).start_add_le (fun t ht => (hgap t ht).ge) hturn
    rw [← htime] at hbefore
    apply Nat.lt_ceil.mpr
    rw [← div_lt_iff₀ phase.rps_pos, ← mul_one_div]
    linarith

/-- The slot after the last was due at the end, or would have been. -/
theorem ceil_le_opened (hphases : g.scenario.phases = [phase]) (hc : Counts g (iterations as) s)
    {ts : List (Turn ℚ)} (hp : Paces g Punctual (iterations as) s ts)
    (hgap : ∀ t ∈ ts, t.gap = 1 / phase.rps) (hended : Ended g as s) :
    ⌈phase.durationSeconds * phase.rps⌉₊ ≤ s.opened + 1 := by
  obtain ⟨now, hloop, hnone⟩ := loop_of_ended hc hended
  have hend := le_of_phaseAt_none hphases hnone
  obtain ⟨us, vs, rfl, hus, hvs⟩ := List.map_eq_append_iff.mp (hp.times.trans hloop)
  obtain ⟨turn, rfl, rfl⟩ := List.map_eq_singleton_iff.mp hvs
  obtain ⟨hturns, -, hlate⟩ := turns_snoc.mp hp.turns
  rw [deadline_eq hturns fun t ht => hgap t (List.mem_append_left _ ht),
    hgap turn (by simp), ← List.length_map (f := Turn.time), hus, hc.length] at hlate
  apply Nat.ceil_le.mpr
  rw [← le_div_iff₀ phase.rps_pos, ← mul_one_div]
  push_cast
  linarith

end single

/-- **Lateness below a slot leaves no trace.** -/
theorem pacing_does_not_drift (g : LoadGenerator) (phase : Phase)
    (hphases : g.scenario.phases = [phase]) (as : List Action) (s : State)
    (h : Steps (next g) (OnSchedule phase) .init as s) :
    (s.pc = .looping ∨ s.pc = .selecting ∨ (∃ seconds, s.pc = .sleeping seconds) →
      s.nextSlot = s.started + (iterations as).loop.length / phase.rps) ∧
    (Ended g as s →
      s.opened = ⌈phase.durationSeconds * phase.rps⌉₊ ∨
        s.opened + 1 = ⌈phase.durationSeconds * phase.rps⌉₊) := by
  obtain ⟨ts, hp, hgap⟩ := exists_punctual hphases h
  have hc := Run.counts h.anywhere
  constructor
  · intro hpc
    apply hp.due_eq hgap
    rcases hpc with hpc | hpc | ⟨seconds, hpc⟩ <;> simp [State.due, hpc]
  · intro hended
    have hle := opened_le_ceil hphases hc hp hgap
    have hge := ceil_le_opened hphases hc hp hgap hended
    omega

theorem pacing_does_not_drift_pair :
    ∃ s, Steps (next (.new "http://svc" pairScenario none)) (OnSchedule pair) .init
        (untimed pairRun) s ∧ s.pc = .stopping 4 ∧
      (s.opened = ⌈pair.durationSeconds * pair.rps⌉₊ ∨
        s.opened + 1 = ⌈pair.durationSeconds * pair.rps⌉₊) := by
  have hruns : (execIf (next (.new "http://svc" pairScenario none)) (OnSchedule pair)
      .init (untimed pairRun)).map (fun s => (s.pc, s.started)) = some (.stopping 4, 7) := by
    decide +kernel
  obtain ⟨s, hs, hend⟩ := Option.map_eq_some_iff.mp hruns
  have hrun := steps_of_execIf hs
  obtain ⟨-, hslots⟩ := pacing_does_not_drift (.new "http://svc" pairScenario none) pair rfl
    (untimed pairRun) s hrun
  rw [Prod.mk.injEq] at hend
  refine ⟨s, hrun, hend.1, hslots ⟨8, by decide +kernel, ?_⟩⟩
  rw [hend.2]
  decide +kernel

end Loadgen
end ObservabilityStack
