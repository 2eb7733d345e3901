import ObservabilityStack.Loadgen.PhaseEntry
import ObservabilityStack.Loadgen.Rounded

/-!
# Which faults a run arms

The runs are those of the driver in float arithmetic (`roundedNext`) on an exact clock
(`Timed.Exact`): only sleeping takes time, a sleep ends when it is due, `stop()` is not called
and armings succeed. The workers, the queue and the order in which the threads move are as free
as ever, and so is the rounding.

What such a run arms is settled before it begins. `Walk k` is the invariant: the loop has
selected a phase `k` times, it is where the iteration number `k` of the timeline is (`InStep`),
and it has armed what the first `k` iterations enter. `walk_next` is the step lemma. In the other
direction, the dispatcher is never stuck: from every reachable state it can go on to any
iteration the timeline has (`exists_walk`).

Together they give `faults_armed_iff`, without a word about how a run ends. In floats it need
not end: at a rate of 10¹⁷ requests per second the interval is lost in the rounding of
`next_slot`, and the loop goes round at one time for ever. What the theorem says of such a run is
that it still comes to have armed every fault, or that it never does.
-/

set_option autoImplicit false

namespace ObservabilityStack
namespace Loadgen

open Transition
open Python (Rounding)

/-- The dispatcher is at work: it neither sleeps nor has it left the loop. -/
def Pc.isBusy : Pc → Bool
  | .entering | .submitting _ | .looping | .selecting | .arming _ _ _ | .opening _ _
  | .dropping _ _ | .pacing _ _ => true
  | _ => false

def Pc.isSleeping : Pc → Bool
  | .sleeping _ => true
  | _ => false

/-- Nobody stops the run, and an arming succeeds. -/
def Action.isSmooth : Action → Bool
  | .stop => false
  | .dispatcher (.arm fault result) => decide (LoadGenerator.arm fault result = .ok ())
  | _ => true

/-- Dispatching takes no time, and a sleep lasts as long as it should. -/
def Timed.Exact (c : Timed) : TimedAction → Prop
  | .elapse seconds => c.state.pc.isBusy = false ∧
      (c.state.pc.isSleeping = true → c.time + seconds ≤ c.due)
  | .act a => a.isSmooth = true

instance (c : Timed) (a : TimedAction) : Decidable (c.Exact a) :=
  match a with
  | .elapse _ => inferInstanceAs (Decidable (_ ∧ (_ → _)))
  | .act _ => inferInstanceAs (Decidable (_ = _))

/-- The faults `arm` sent, in order. -/
def armed : List TimedAction → List Fault :=
  List.filterMap fun
    | .act (.dispatcher (.arm fault _)) => some fault
    | _ => none

/-- The scenario is over: the loop was left. -/
def Pc.isPast : Pc → Bool
  | .stopping _ | .returned => true
  | _ => false

/-! ## The invariant

The invariant speaks of the iteration and of the place of the dispatcher in it. Everything that the
other threads do is a step that keeps it as it is, and so is the passing of time, except for a
sleep, which it brings to its end. -/

/-- Where the clock and the loop are, after `k` selections of a phase. -/
def Timed.InStep (r : Rounding) (s : Scenario) (started : ℚ) (k : ℕ) (c : Timed) : Prop :=
  match c.state.pc with
  | .entering => k = 0 ∧ c.time = started
  | .submitting _ => k = 0 ∧ c.time = started ∧ c.state.nextSlot = started
  | .looping | .selecting => s.beat r started k = some ⟨c.state.nextSlot, c.time⟩
  | .arming phase fault now =>
      now = c.time ∧ s.beat r started k = some ⟨c.state.nextSlot, c.time⟩ ∧
        (s.placeAt r started k).bind (s.phases[·]?) = some phase ∧
        phase.fault = some fault ∧ c.state.current.map Phase.ref ≠ some phase.ref
  | .opening phase now | .dropping phase now | .pacing phase now =>
      now = c.time ∧ ∃ j, k = j + 1 ∧ s.beat r started j = some ⟨c.state.nextSlot, c.time⟩ ∧
        (s.placeAt r started j).bind (s.phases[·]?) = some phase
  | .sleeping _ => s.beat r started k = some ⟨c.state.nextSlot, max c.time c.due⟩
  | .stopping _ | .returned => ∃ b, s.beat r started k = some b ∧ s.place r started b = none
  | .unwinding _ | .raised _ => False

structure Walk (r : Rounding) (g : LoadGenerator) (t : ℚ) (as : List TimedAction) (c : Timed)
    (k : ℕ) : Prop where
  going : c.state.stop = false
  started : c.state.pc = .entering ∨ c.state.started = t
  /-- The dispatcher is where the iteration number `k` is. -/
  inStep : c.InStep r g.scenario t k
  /-- It has armed what the iterations before have entered… -/
  armed_eq : armed as = g.scenario.entered r t k
  /-- …and remembers the last of these phases. -/
  current_eq : c.state.current.map Phase.ref = (g.scenario.lastEntered r t k).map Phase.ref

/-- The steps the dispatcher has before it until it next selects a phase. -/
def Timed.stepsLeft (g : LoadGenerator) (c : Timed) : ℕ :=
  match c.state.pc with
  | .entering => g.workers + 4
  | .submitting n => n + 3
  | .opening _ _ => 8
  | .dropping _ _ => 7
  | .pacing _ _ => 6
  | .sleeping _ => if c.time < c.due then 5 else 4
  | .looping => 3
  | .selecting => 2
  | .arming _ _ _ => 1
  | .stopping _ | .unwinding _ | .returned | .raised _ => 0

section steps

variable {r : Rounding} {g : LoadGenerator} {t : ℚ} {as : List TimedAction} {c c' : Timed}
  {a : TimedAction} {k : ℕ}

theorem walk_init (r : Rounding) (g : LoadGenerator) (t : ℚ) : Walk r g t [] (.init t) 0 :=
  ⟨rfl, .inl rfl, ⟨rfl, rfl⟩, rfl, rfl⟩

theorem armed_snoc (as : List TimedAction) (a : TimedAction) :
    armed (as ++ [a]) = armed as ++ armed [a] := List.filterMap_append

/-- A step that selects nothing and arms nothing. -/
theorem Walk.snoc (hw : Walk r g t as c k) (hquiet : armed [a] = [])
    (hstop : c'.state.stop = c.state.stop) (hstarted : c'.state.started = t)
    (hcurrent : c'.state.current = c.state.current) (hin : c'.InStep r g.scenario t k) :
    Walk r g t (as ++ [a]) c' k := by
  refine ⟨hstop.trans hw.going, .inr hstarted, hin, ?_, ?_⟩
  · rw [armed_snoc, hquiet, List.append_nil]
    exact hw.armed_eq
  · rw [hcurrent]
    exact hw.current_eq

theorem Walk.started_of (hw : Walk r g t as c k) (hpc : c.state.pc ≠ .entering) :
    c.state.started = t := hw.started.resolve_left hpc

/-- Time passes for a sleeping dispatcher up to the end of its sleep. -/
theorem walk_elapse {seconds : ℚ} (hw : Walk r g t as c k) (hpos : 0 < seconds)
    (hok : c.Exact (.elapse seconds)) :
    Walk r g t (as ++ [.elapse seconds]) { c with time := c.time + seconds } k := by
  obtain ⟨hbusy, hsleep⟩ := hok
  have hstarted : c.state.started = t := by
    apply hw.started_of
    intro hpc
    rw [hpc] at hbusy
    cases hbusy
  refine hw.snoc rfl rfl hstarted rfl ?_
  have hin := hw.inStep
  unfold Timed.InStep at hin ⊢
  cases hpc : c.state.pc with
  | entering | submitting | looping | selecting | arming | opening | dropping | pacing =>
    rw [hpc] at hbusy
    cases hbusy
  | sleeping remaining =>
    have hdue : c.time + seconds ≤ c.due := hsleep (by rw [hpc]; rfl)
    have hbefore : c.time ≤ c.due := by linarith
    simp only [hpc] at hin ⊢
    rw [max_eq_right hdue, hin, max_eq_right hbefore]
  | unwinding | raised =>
    rw [hpc] at hin
    exact hin.elim
  | stopping | returned =>
    simp only [hpc] at hin ⊢
    exact hin

/-- The steps that the dispatcher has no part in. -/
theorem walk_worker {s : State} {w : ℕ} {a : WorkerAction} (hw : Walk r g t as c k)
    (h : workerStep c.state w a = some s) :
    Walk r g t (as ++ [.act (.worker w a)]) (c.after s (.worker w a)) k := by
  obtain ⟨hpc, hstop, hstarted, hnext, hcurrent⟩ := workerStep_frame h
  refine ⟨?_, ?_, ?_, ?_, ?_⟩
  · rw [Timed.after_state, hstop]
    exact hw.going
  · rw [Timed.after_state, hpc, hstarted]
    exact hw.started
  · unfold Timed.InStep
    rw [Timed.after_state, Timed.after_time, Timed.after_worker_due, hpc, hnext, hcurrent]
    exact hw.inStep
  · rw [armed_snoc]
    exact (List.append_nil _).trans hw.armed_eq
  · rw [Timed.after_state, hcurrent]
    exact hw.current_eq

/-- The first slot is at the start. -/
theorem walk_started (hw : Walk r g t as c k) (hpc : c.state.pc = .entering) :
    Walk r g t (as ++ [.act (.dispatcher (.readStarted c.time))])
      { c with state :=
        { c.state with
          pc := .submitting g.workers, started := c.time, nextSlot := c.time } } k := by
  have hin := hw.inStep
  simp only [Timed.InStep, hpc] at hin
  obtain ⟨hk, htime⟩ := hin
  exact hw.snoc rfl rfl htime rfl ⟨hk, htime, htime⟩

/-- The check of the flag, which nobody has set. -/
theorem walk_checked (hw : Walk r g t as c k)
    (hpc : c.state.pc = .looping ∨ c.state.pc = .submitting 0) :
    Walk r g t (as ++ [.act (.dispatcher .checkStop)])
      { c with state :=
        { c.state with pc := if c.state.stop then .stopping g.workers else .selecting } } k := by
  have hne : c.state.pc ≠ .entering := by rcases hpc with hpc | hpc <;> simp [hpc]
  refine hw.snoc rfl rfl (hw.started_of hne) rfl ?_
  have hin := hw.inStep
  rw [hw.going, if_neg Bool.false_ne_true]
  rcases hpc with hpc | hpc
  · simp only [Timed.InStep, hpc] at hin
    exact hin
  · simp only [Timed.InStep, hpc] at hin
    obtain ⟨rfl, htime, hslot⟩ := hin
    show Scenario.beat g.scenario r t 0 = some ⟨c.state.nextSlot, c.time⟩
    rw [htime, hslot]
    rfl

/-- The selection of a phase: it is entered at once, or its fault is armed first. -/
theorem walk_selected (hw : Walk r g t as c k) (hpc : c.state.pc = .selecting) {s : State}
    (hs : s = enterPhase g c.state c.time
      (g.scenario.phaseAt (r.round (c.time - c.state.started)))) :
    Walk r g t (as ++ [.act (.dispatcher (.readNow c.time))]) { c with state := s } (k + 1) ∨
      Walk r g t (as ++ [.act (.dispatcher (.readNow c.time))]) { c with state := s } k ∧
        ({ c with state := s } : Timed).stepsLeft g < c.stepsLeft g := by
  have hstarted : c.state.started = t := hw.started_of (by rw [hpc]; exact Pc.noConfusion)
  have hbeat := hw.inStep
  simp only [Timed.InStep, hpc] at hbeat
  have hat : g.scenario.phaseAt (r.round (c.time - c.state.started)) =
      .ok ((g.scenario.placeAt r t k).bind (g.scenario.phases[·]?)) := by
    rw [hstarted, Scenario.phaseAt_eq_owner (Scenario.elapsed_nonneg hbeat), Scenario.placeAt,
      hbeat]
    rfl
  -- Selecting arms nothing by itself.
  have hquiet : ∀ now, armed (as ++ [.act (.dispatcher (.readNow now))]) =
      g.scenario.entered r t k := by
    intro now
    rw [armed_snoc]
    exact (List.append_nil _).trans hw.armed_eq
  rw [hat] at hs
  cases hphase : (g.scenario.placeAt r t k).bind (g.scenario.phases[·]?) with
  | none =>
    -- The time is past the last phase, so there is no iteration after this one.
    have hend : g.scenario.place r t ⟨c.state.nextSlot, c.time⟩ = none := by
      rw [Scenario.placeAt, hbeat, Option.bind_some] at hphase
      cases howner : g.scenario.place r t ⟨c.state.nextSlot, c.time⟩ with
      | none => rfl
      | some i =>
        have hplace : g.scenario.placeAt r t k = some i := by
          rw [Scenario.placeAt, hbeat, Option.bind_some, howner]
        have hlt := Scenario.placeAt_lt hplace
        simp [howner, hlt] at hphase
    rw [hphase] at hs
    subst hs
    refine Or.inr ⟨⟨hw.going, .inr hstarted, ⟨_, hbeat, hend⟩, hquiet _, hw.current_eq⟩, ?_⟩
    simp [Timed.stepsLeft, enterPhase, hpc]
  | some phase =>
    have hentered := Scenario.entered_succ hphase
    have hlast := Scenario.lastEntered_succ hphase
    rw [← hw.current_eq] at hentered
    rw [hphase] at hs
    simp only [enterPhase] at hs
    split at hs
    -- The object selected before, so its fault has been armed: the walk is one iteration
    -- further.
    · rename_i hsame
      rw [if_pos hsame, List.append_nil] at hentered
      subst hs
      refine Or.inl ⟨hw.going, .inr hstarted, ⟨rfl, k, rfl, hbeat, hphase⟩,
        (hquiet _).trans hentered.symm, ?_⟩
      rw [hlast]
      exact hsame
    · rename_i hnew
      rw [if_neg hnew] at hentered
      cases hfault : phase.fault with
      | none =>
        simp only [hfault] at hs
        rw [hfault, Option.toList_none, List.append_nil] at hentered
        subst hs
        refine Or.inl ⟨hw.going, .inr hstarted, ⟨rfl, k, rfl, hbeat, hphase⟩,
          (hquiet _).trans hentered.symm, ?_⟩
        rw [hlast]
      | some fault =>
        simp only [hfault] at hs
        subst hs
        refine Or.inr ⟨⟨hw.going, .inr hstarted, ⟨rfl, hbeat, hphase, hfault, hnew⟩, hquiet _,
          hw.current_eq⟩, ?_⟩
        simp [Timed.stepsLeft, hpc]

/-- The arming that was due. -/
theorem walk_armed {phase : Phase} {fault : Fault} {now : ℚ} {result : SendResult}
    (hw : Walk r g t as c k) (hpc : c.state.pc = .arming phase fault now) :
    Walk r g t (as ++ [.act (.dispatcher (.arm fault result))])
      { c with state := { c.state with pc := .opening phase now, current := some phase } }
      (k + 1) := by
  have hstarted : c.state.started = t := hw.started_of (by rw [hpc]; exact Pc.noConfusion)
  have hin := hw.inStep
  simp only [Timed.InStep, hpc] at hin
  obtain ⟨hnow, hbeat, hphase, hfault, hnew⟩ := hin
  refine ⟨hw.going, .inr hstarted, ⟨hnow, k, rfl, hbeat, hphase⟩, ?_, ?_⟩
  · rw [Scenario.entered_succ hphase, ← hw.current_eq, if_neg hnew, hfault, armed_snoc,
      hw.armed_eq]
    rfl
  · rw [Scenario.lastEntered_succ hphase]

/-- The next slot is set, and the dispatcher sleeps until it is due, if it is not due at once. -/
theorem walk_paced {phase : Phase} {now nextSlot remaining : ℚ} (hw : Walk r g t as c k)
    (hpc : c.state.pc = .pacing phase now)
    (hnext : nextSlot = max (r.round (c.state.nextSlot + r.round (1 / phase.rps))) now)
    (hleft : remaining = r.round (nextSlot - c.time)) :
    Walk r g t (as ++ [.act (.dispatcher (.pace c.time))])
      (c.roundedAfter r
        { c.state with
          nextSlot := nextSlot
          pc := if remaining > 0 then .sleeping remaining else .looping }
        (.dispatcher (.pace c.time))) k := by
  have hstarted : c.state.started = t := hw.started_of (by rw [hpc]; exact Pc.noConfusion)
  have hin := hw.inStep
  simp only [Timed.InStep, hpc] at hin
  obtain ⟨hnow, j, rfl, hbeat, hphase⟩ := hin
  have hfollowing := Scenario.beat_following hbeat hphase
  simp only [Beat.following] at hfollowing
  rw [← hnow, ← hnext, hnow, ← hleft] at hfollowing
  refine hw.snoc rfl rfl hstarted rfl ?_
  by_cases hpos : remaining > 0
  · simp only [Timed.InStep, Timed.roundedAfter, if_pos hpos]
    rw [hfollowing, if_pos hpos]
  · simp only [Timed.InStep, Timed.roundedAfter, if_neg hpos]
    rw [hfollowing, if_neg hpos]

/-- The sleep is over when it is due. -/
theorem walk_woken {remaining : ℚ} (hw : Walk r g t as c k)
    (hpc : c.state.pc = .sleeping remaining) (hdue : c.due ≤ c.time) :
    Walk r g t (as ++ [.act (.dispatcher .wake)])
      { c with state := { c.state with pc := .looping } } k := by
  have hstarted : c.state.started = t := hw.started_of (by rw [hpc]; exact Pc.noConfusion)
  have hin := hw.inStep
  simp only [Timed.InStep, hpc, max_eq_left hdue] at hin
  exact hw.snoc rfl rfl hstarted rfl hin

/-- The step lemma. -/
theorem walk_next (hw : Walk r g t as c k) (hok : c.Exact a) (hn : roundedNext r g c a = some c') :
    ∃ k, Walk r g t (as ++ [a]) c' k := by
  cases a with
  | elapse seconds =>
    simp only [roundedNext] at hn
    split at hn
    · cases hn
      exact ⟨k, walk_elapse hw ‹_› hok⟩
    · cases hn
  | act a =>
    simp only [roundedNext] at hn
    split at hn
    · rename_i hallow
      obtain ⟨hread, hwake⟩ := hallow
      obtain ⟨s, hs, rfl⟩ := Option.map_eq_some_iff.mp hn
      cases roundedStep_cases hs with
      | readNow now hpc =>
        have hnow : now = c.time := hread now rfl
        subst hnow
        rcases walk_selected hw hpc rfl with hwalk | ⟨hwalk, -⟩
        · exact ⟨k + 1, hwalk⟩
        · exact ⟨k, hwalk⟩
      | pace phase now clock nextSlot remaining hpc hnext hleft =>
        have hclock : clock = c.time := hread clock rfl
        subst hclock
        exact ⟨k, walk_paced hw hpc hnext hleft⟩
      | other _ _ hother hnext =>
        rw [Timed.roundedAfter_of_other hother]
        cases a with
        | stop => cases hok
        | worker w a => exact ⟨k, walk_worker hw hnext⟩
        | dispatcher a =>
          have hin := hw.inStep
          cases dispatcherStep_cases hnext with
          | readNow | pace => cases hother
          | readStarted now hpc =>
            have hnow : now = c.time := hread now rfl
            subst hnow
            exact ⟨k, walk_started hw hpc⟩
          | checkStop hpc => exact ⟨k, walk_checked hw hpc⟩
          | armed phase fault now result hpc hsent => exact ⟨k + 1, walk_armed hw hpc⟩
          | armFailed phase fault now result exc hpc herr =>
            cases (of_decide_eq_true hok).symm.trans herr
          | wake remaining hpc => exact ⟨k, walk_woken hw hpc (hwake rfl)⟩
          | propagate exc hpc hall =>
            simp only [Timed.InStep, hpc] at hin
          | submit _ hpc | putNowait _ _ hpc _ | putFull _ _ hpc _ | recordDropped _ _ hpc
          | putShutdown _ hpc _ | leave hpc _ =>
            -- The place moves on, and what it says of the slot stays.
            simp only [Timed.InStep, hpc] at hin
            have hstarted : c.state.started = t :=
              hw.started_of (by rw [hpc]; exact Pc.noConfusion)
            exact ⟨k, hw.snoc rfl rfl hstarted rfl hin⟩
    · cases hn

theorem exists_walk_of_run (h : Steps (roundedNext r g) Timed.Exact (.init t) as c) :
    ∃ k, Walk r g t as c k := by
  refine h.invariant_trace (I := fun as c => ∃ k, Walk r g t as c k) ⟨0, walk_init r g t⟩ ?_
  intro as c a c' hwalk hok hn
  obtain ⟨k, hw⟩ := hwalk
  exact walk_next hw hok hn

/-! ## The dispatcher can go on

The invariant alone would be kept by a dispatcher that never moves. Here is that it moves: there is
an action for it at every place, and `stepsLeft` counts how many there are before it selects
again. -/

/-- An action of the driver that the clock allows is a step of the whole. -/
theorem exists_step_of_act (a : Action) (hallow : c.Allows a) (hok : a.isSmooth = true)
    (h : ∃ s, roundedStep r g c.state a = some s ∧
      (Walk r g t (as ++ [.act a]) (c.roundedAfter r s a) (k + 1) ∨
        Walk r g t (as ++ [.act a]) (c.roundedAfter r s a) k ∧
          (c.roundedAfter r s a).stepsLeft g < c.stepsLeft g)) :
    ∃ a c', c.Exact a ∧ roundedNext r g c a = some c' ∧
      (Walk r g t (as ++ [a]) c' (k + 1) ∨
        Walk r g t (as ++ [a]) c' k ∧ c'.stepsLeft g < c.stepsLeft g) := by
  obtain ⟨s, hstep, hwalk⟩ := h
  refine ⟨.act a, _, hok, ?_, hwalk⟩
  simp only [roundedNext, if_pos hallow, hstep, Option.map_some]

/-- The dispatcher's next action on an exact clock: it selects a phase, or is closer to it. -/
theorem exists_step (hw : Walk r g t as c k) (hleft : c.stepsLeft g ≠ 0) :
    ∃ a c', c.Exact a ∧ roundedNext r g c a = some c' ∧
      (Walk r g t (as ++ [a]) c' (k + 1) ∨
        Walk r g t (as ++ [a]) c' k ∧ c'.stepsLeft g < c.stepsLeft g) := by
  have hin := hw.inStep
  have hreads : ∀ a : Action, (∀ now ∈ a.reading, now = c.time) → a ≠ .dispatcher .wake →
      c.Allows a := fun a hread hne => ⟨hread, fun h => absurd h hne⟩
  -- At every place the dispatcher has one action, and the walk lemma for it says where it leads.
  cases hpc : c.state.pc with
  | entering =>
    apply exists_step_of_act (.dispatcher (.readStarted c.time))
      (hreads _ (by simp [Action.reading]) (by simp)) rfl
    refine ⟨_, by simp only [roundedStep, next, dispatcherStep, hpc]; rfl, .inr ⟨?_, ?_⟩⟩
    · exact walk_started hw hpc
    · simp [Timed.stepsLeft, Timed.roundedAfter, Timed.after, hpc]
  | submitting n =>
    cases n with
    | zero =>
      apply exists_step_of_act (.dispatcher .checkStop)
        (hreads _ (by simp [Action.reading]) (by simp)) rfl
      refine ⟨_, by simp only [roundedStep, next, dispatcherStep, hpc]; rfl, .inr ⟨?_, ?_⟩⟩
      · exact walk_checked hw (.inr hpc)
      · simp [Timed.stepsLeft, Timed.roundedAfter, Timed.after, hpc, hw.going]
    | succ n =>
      simp only [Timed.InStep, hpc] at hin
      have hstarted : c.state.started = t := hw.started_of (by rw [hpc]; exact Pc.noConfusion)
      apply exists_step_of_act (.dispatcher .submit)
        (hreads _ (by simp [Action.reading]) (by simp)) rfl
      refine ⟨_, by simp only [roundedStep, next, dispatcherStep, hpc]; rfl, .inr ⟨?_, ?_⟩⟩
      · exact hw.snoc rfl rfl hstarted rfl hin
      · simp [Timed.stepsLeft, Timed.roundedAfter, Timed.after, hpc]
  | looping =>
    apply exists_step_of_act (.dispatcher .checkStop)
      (hreads _ (by simp [Action.reading]) (by simp)) rfl
    refine ⟨_, by simp only [roundedStep, next, dispatcherStep, hpc]; rfl, .inr ⟨?_, ?_⟩⟩
    · exact walk_checked hw (.inl hpc)
    · simp [Timed.stepsLeft, Timed.roundedAfter, Timed.after, hpc, hw.going]
  | selecting =>
    apply exists_step_of_act (.dispatcher (.readNow c.time))
      (hreads _ (by simp [Action.reading]) (by simp)) rfl
    refine ⟨_, by simp only [roundedStep, hpc]; rfl, ?_⟩
    exact walk_selected hw hpc rfl
  | arming phase fault now =>
    apply exists_step_of_act (.dispatcher (.arm fault (.status 200)))
      (hreads _ (by simp [Action.reading]) (by simp)) rfl
    refine ⟨_, by simp only [roundedStep, next, dispatcherStep, hpc]; rfl, .inl ?_⟩
    exact walk_armed hw hpc
  | opening phase now =>
    simp only [Timed.InStep, hpc] at hin
    have hstarted : c.state.started = t := hw.started_of (by rw [hpc]; exact Pc.noConfusion)
    by_cases hroom : c.state.slots.length < g.maxsize
    · apply exists_step_of_act (.dispatcher (.putNowait c.state.opened))
        (hreads _ (by simp [Action.reading]) (by simp)) rfl
      refine ⟨_, by simp only [roundedStep, next, dispatcherStep, hpc, hroom, true_and]; rfl,
        .inr ⟨?_, ?_⟩⟩
      · exact hw.snoc rfl rfl hstarted rfl hin
      · simp [Timed.stepsLeft, Timed.roundedAfter, Timed.after, hpc]
    · apply exists_step_of_act (.dispatcher .putFull)
        (hreads _ (by simp [Action.reading]) (by simp)) rfl
      refine ⟨_, by simp only [roundedStep, next, dispatcherStep, hpc, if_neg hroom]; rfl,
        .inr ⟨?_, ?_⟩⟩
      · exact hw.snoc rfl rfl hstarted rfl hin
      · simp [Timed.stepsLeft, Timed.roundedAfter, Timed.after, hpc]
  | dropping phase now =>
    simp only [Timed.InStep, hpc] at hin
    have hstarted : c.state.started = t := hw.started_of (by rw [hpc]; exact Pc.noConfusion)
    apply exists_step_of_act (.dispatcher .recordDropped)
      (hreads _ (by simp [Action.reading]) (by simp)) rfl
    refine ⟨_, by simp only [roundedStep, next, dispatcherStep, hpc]; rfl, .inr ⟨?_, ?_⟩⟩
    · exact hw.snoc rfl rfl hstarted rfl hin
    · simp [Timed.stepsLeft, Timed.roundedAfter, Timed.after, hpc]
  | pacing phase now =>
    apply exists_step_of_act (.dispatcher (.pace c.time))
      (hreads _ (by simp [Action.reading]) (by simp)) rfl
    refine ⟨_, by simp only [roundedStep, hpc]; rfl, .inr ⟨?_, ?_⟩⟩
    · exact walk_paced hw hpc rfl rfl
    · simp only [Timed.stepsLeft, Timed.roundedAfter, hpc]
      generalize r.round (max (r.round (c.state.nextSlot + r.round (1 / phase.rps))) now - c.time)
        = remaining
      by_cases hpos : remaining > 0
      · simp only [if_pos hpos]
        split <;> omega
      · simp only [if_neg hpos]
        omega
  | sleeping remaining =>
    by_cases hdue : c.time < c.due
    · have hpos : 0 < c.due - c.time := sub_pos.mpr hdue
      have hok : c.Exact (.elapse (c.due - c.time)) :=
        ⟨by rw [hpc]; rfl, fun _ => (add_sub_cancel c.time c.due).le⟩
      refine ⟨_, _, hok, if_pos hpos, .inr ⟨walk_elapse hw hpos hok, ?_⟩⟩
      simp [Timed.stepsLeft, hpc, hdue]
    · have hpast : c.due ≤ c.time := not_lt.mp hdue
      apply exists_step_of_act (.dispatcher .wake) ⟨by simp [Action.reading], fun _ => hpast⟩ rfl
      refine ⟨_, by simp only [roundedStep, next, dispatcherStep, hpc]; rfl, .inr ⟨?_, ?_⟩⟩
      · exact walk_woken hw hpc hpast
      · simp [Timed.stepsLeft, Timed.roundedAfter, Timed.after, hpc, hdue]
  | stopping | unwinding | returned | raised => simp [Timed.stepsLeft, hpc] at hleft

/-- From every state of a run, the dispatcher comes to the next iteration, or the scenario is
    over. -/
theorem exists_iteration (hw : Walk r g t as c k)
    (hnext : (g.scenario.beat r t (k + 1)).isSome) :
    ∃ bs c', Steps (roundedNext r g) Timed.Exact c bs c' ∧ Walk r g t (as ++ bs) c' (k + 1) := by
  induction hn : c.stepsLeft g using Nat.strongRecOn generalizing as c with
  | ind n ih =>
    have hleft : c.stepsLeft g ≠ 0 := by
      have hin := hw.inStep
      intro hzero
      have hover : ∀ b, g.scenario.beat r t k = some b → g.scenario.place r t b = none → False := by
        intro b hb hend
        simp [Scenario.beat, hb, hend] at hnext
      cases hpc : c.state.pc with
      | stopping | returned =>
        simp only [Timed.InStep, hpc] at hin
        obtain ⟨b, hb, hend⟩ := hin
        exact hover b hb hend
      | unwinding | raised => simp [Timed.InStep, hpc] at hin
      | sleeping =>
        simp only [Timed.stepsLeft, hpc] at hzero
        split at hzero <;> omega
      | _ => simp [Timed.stepsLeft, hpc] at hzero
    obtain ⟨a, c₁, hok, hstep, hlater | ⟨hsame, hless⟩⟩ := exists_step hw hleft
    · exact ⟨[a], c₁, .single hok hstep, hlater⟩
    · obtain ⟨bs, c', hrun, hlater⟩ := ih _ (hn ▸ hless) hsame rfl
      refine ⟨[a] ++ bs, c', (Steps.single hok hstep).trans hrun, ?_⟩
      rwa [← List.append_assoc]

theorem exists_walk {n : ℕ} (hw : Walk r g t as c k) (hkn : k ≤ n)
    (hn : (g.scenario.beat r t n).isSome) :
    ∃ bs c', Steps (roundedNext r g) Timed.Exact c bs c' ∧ Walk r g t (as ++ bs) c' n := by
  induction hkn with
  | refl => exact ⟨[], c, .refl, by rwa [List.append_nil]⟩
  | step _ ih =>
    obtain ⟨b', hb'⟩ := Option.isSome_iff_exists.mp hn
    obtain ⟨b, -, hb, -, -⟩ := Scenario.beat_succ hb'
    obtain ⟨bs, c₁, hrun, hw₁⟩ := ih (by rw [hb]; rfl)
    obtain ⟨cs, c', hrun', hw'⟩ := exists_iteration hw₁ hn
    exact ⟨bs ++ cs, c', hrun.trans hrun', by rwa [← List.append_assoc]⟩

/-! ## What is armed

Both directions of the result. A run that goes past the last fault has armed every one of them if
all are entered, by the invariant; and when one is never entered, no run arms it. -/

/-- When the loop has been left, there is nothing more to reach. -/
theorem armed_of_past (hw : Walk r g t as c k) (hpast : c.state.pc.isPast = true)
    (hall : g.scenario.EveryFaultEntered r t) : armed as = g.scenario.faults := by
  have hin := hw.inStep
  obtain ⟨b, hb, hend⟩ : ∃ b, g.scenario.beat r t k = some b ∧ g.scenario.place r t b = none := by
    cases hpc : c.state.pc with
    | stopping | returned => simpa only [Timed.InStep, hpc] using hin
    | _ =>
      rw [hpc] at hpast
      cases hpast
  rw [hw.armed_eq]
  apply Scenario.entered_of_everyFaultEntered hall
  intro i phase hphase hfault
  exact Scenario.mem_visited_of_ended hb hend (hall i phase hphase hfault).1

/-- A run that has come far enough has armed every fault. -/
theorem exists_all_armed (hw : Walk r g t as c k) (hall : g.scenario.EveryFaultEntered r t) :
    ∃ bs c', Steps (roundedNext r g) Timed.Exact c bs c' ∧
      armed (as ++ bs) = g.scenario.faults := by
  have hreached : ∀ i phase, g.scenario.phases[i]? = some phase → phase.fault ≠ none →
      g.scenario.Reached r t i := fun i phase hphase hfault => (hall i phase hphase hfault).1
  obtain ⟨n, hbeat, hmem⟩ := Scenario.exists_beat_of_reached hreached
  rcases le_total k n with hkn | hnk
  · obtain ⟨bs, c', hrun, hw'⟩ := exists_walk hw hkn hbeat
    exact ⟨bs, c', hrun, hw'.armed_eq.trans (Scenario.entered_of_everyFaultEntered hall hmem)⟩
  · refine ⟨[], c, .refl, ?_⟩
    rw [List.append_nil, hw.armed_eq]
    apply Scenario.entered_of_everyFaultEntered hall
    intro i phase hphase hfault
    obtain ⟨m, hm, hplace⟩ := Scenario.mem_visited.mp (hmem i phase hphase hfault)
    exact Scenario.mem_visited.mpr ⟨m, hm.trans_le hnk, hplace⟩

end steps

/-- **The faults of a scenario are armed, each once and in order, exactly when the code's own
    deadlines fall into every phase with a fault, and none of these is the object entered
    before it.** Every run that is over has then armed them, and every run that is not goes on
    to arm them. -/
theorem faults_armed_iff (r : Rounding) (g : LoadGenerator) (t : ℚ) :
    (∀ as c, Steps (roundedNext r g) Timed.Exact (.init t) as c →
      (c.state.pc.isPast = true → armed as = g.scenario.faults) ∧
      ∃ bs c', Steps (roundedNext r g) Timed.Exact c bs c' ∧
        armed (as ++ bs) = g.scenario.faults) ↔
      g.scenario.EveryFaultEntered r t := by
  constructor
  · intro hall
    obtain ⟨-, bs, c, hrun, harmed⟩ := hall [] (.init t) .refl
    obtain ⟨k, hw⟩ := exists_walk_of_run hrun
    exact Scenario.everyFaultEntered_of_entered (hw.armed_eq.symm.trans harmed)
  · intro hall as c hrun
    obtain ⟨k, hw⟩ := exists_walk_of_run hrun
    exact ⟨fun hpast => armed_of_past hw hpast hall, exists_all_armed hw hall⟩

/-! ### A closing `clear` that is skipped

At a request every four seconds the second slot comes when the scenario has been over for two.
Every number of this run is a float, so nothing of it is a matter of rounding. -/

def trickle : Phase where
  ref := 0
  name := "burst"
  durationSeconds := 1
  rps := 1 / 4
  fault := some ⟨.errors, [("ratio", 1), ("status_code", 503), ("ttl_seconds", 60)]⟩
  duration_pos := Int.one_pos
  rps_pos := by decide +kernel

def closing : Phase where
  ref := 1
  name := "recovery"
  durationSeconds := 1
  rps := 10
  fault := some ⟨.clear, []⟩
  duration_pos := Int.one_pos
  rps_pos := by decide +kernel

def trickleGenerator : LoadGenerator where
  target := "http://svc"
  scenario :=
    { name := "unit", description := "", phases := [trickle, closing], expectedAlerts := []
      phases_ne := by simp
      ref_inj := by simp [trickle, closing] }
  workers := 1
  workers_pos := Nat.one_pos

def trickleRun : List TimedAction :=
  [.act (.dispatcher (.readStarted 0)), .act (.dispatcher .submit),
   .act (.dispatcher .checkStop), .act (.dispatcher (.readNow 0)),
   .act (.dispatcher (.arm
     ⟨.errors, [("ratio", 1), ("status_code", 503), ("ttl_seconds", 60)]⟩ (.status 200))),
   .act (.dispatcher (.putNowait 0)), .act (.worker 0 (.getSlot 0)), .act (.dispatcher (.pace 0)),
   .act (.worker 0 (.choose ⟨"GET", "/api/items", none⟩ 0)), .elapse 1,
   .act (.worker 0 (.send 0 (.status 503))), .act (.worker 0 (.record 1)), .elapse 3,
   .act (.dispatcher .wake), .act (.dispatcher .checkStop), .act (.dispatcher (.readNow 4)),
   .act (.dispatcher .putShutdown), .act (.worker 0 .getShutdown), .act (.dispatcher .exitPool)]

theorem closing_clear_is_skipped :
    ¬ ∀ as c, Steps (roundedNext .binary64 trickleGenerator) Timed.Exact (.init 0) as c →
      c.state.pc.isPast = true → armed as = trickleGenerator.scenario.faults := by
  have hend : (execIf (roundedNext .binary64 trickleGenerator) Timed.Exact (.init 0)
      trickleRun).map (fun c => c.state.pc) = some .returned := by decide +kernel
  obtain ⟨c, hc, hpc⟩ := Option.map_eq_some_iff.mp hend
  intro hall
  have harmed := hall trickleRun c (steps_of_execIf hc) (by rw [hpc]; rfl)
  exact absurd harmed (by decide +kernel)

/-! ### A closing `clear` that is lost in the rounding

Eight seconds at three requests every four seconds. In exact arithmetic the slot number 6 is at
8, where the closing phase begins. In double precision it comes an instant before, the next one
is past the end, and the `clear` is never sent. -/

def sparse : Phase where
  ref := 0
  name := "sparse"
  durationSeconds := 8
  rps := 3 / 4
  fault := none
  duration_pos := by decide
  rps_pos := by decide +kernel

def boundaryScenario : Scenario where
  name := "unit"
  description := ""
  phases := [sparse, closing]
  expectedAlerts := []
  phases_ne := by simp
  ref_inj := by simp [sparse, closing]

example : boundaryScenario.placeAt .exact 0 6 = some 1 := by decide +kernel

example : boundaryScenario.placeAt .binary64 0 6 = some 0 ∧
    boundaryScenario.placeAt .binary64 0 7 = none := by decide +kernel

end Loadgen
end ObservabilityStack
