import ObservabilityStack.Lib.Pacer
import ObservabilityStack.Loadgen.Timed

/-!
# The iterations of the dispatcher are the turns of a pacer

What the dispatcher does between two readings of `now` is one turn of a loop with absolute
deadlines (`Lib/Pacer`): it begins at `now`, and its gap is `1 / rps` of the phase that
`phase_at` selected. `Paces` is the simulation. It holds for every run of the driver, with
whatever is known about each reading of the clock in relation to `next_slot` (`OnTurn`) as what
is known about the turns.

On a clock (`Timed`) every iteration waits for its slot, and nothing more is known: arming, the
queue and the scheduler may take any time.

The simulation is what keeps the results about pacing short. The driver has fourteen kinds of steps
and two kinds of threads, and a turn has a deadline and a beginning; the proofs about bursts and
about drift are inductions over turns, in a library that knows nothing of the driver.
-/

set_option autoImplicit false

namespace ObservabilityStack
namespace Loadgen

open Transition Pacer

/-! ## The iterations of a run

An iteration is a reading of `now`, with what was known of the deadline then. A run has as many as
it has opened slots, or one more while a slot is being opened. -/

/-- `loop` are the readings of `now`, and `slots` those of the iterations that came to open
    their slot, be it queued or dropped. -/
structure Iterations where
  loop : List ℚ
  slots : List ℚ

def Iterations.add (i : Iterations) : Action → Iterations
  | .dispatcher (.readNow now) => { i with loop := i.loop ++ [now] }
  | .dispatcher (.putNowait _) | .dispatcher .recordDropped =>
      { i with slots := i.slots ++ i.loop.getLast?.toList }
  | _ => i

def iterations (as : List Action) : Iterations := as.foldl Iterations.add ⟨[], []⟩

theorem iterations_snoc (as : List Action) (a : Action) :
    iterations (as ++ [a]) = (iterations as).add a := by
  unfold iterations
  rw [List.foldl_append]
  rfl

/-- `phase_at` selects a phase at this time. -/
def Selects (g : LoadGenerator) (s : State) (now : ℚ) : Prop :=
  ∃ phase, g.scenario.phaseAt (now - s.started) = .ok (some phase)

/-- The iteration in progress is the only one that may lack its slot. -/
def Iterations.Agrees (i : Iterations) (g : LoadGenerator) (s : State) : Prop :=
  match s.pc with
  | .entering => i.loop = [] ∧ i.slots = []
  | .arming _ _ now | .opening _ now | .dropping _ now =>
      i.loop = i.slots ++ [now] ∧ Selects g s now
  | .stopping _ | .unwinding _ | .returned | .raised _ =>
      ∃ extra, i.loop = i.slots ++ extra ∧ extra.length ≤ 1
  | _ => i.loop = i.slots

structure Counts (g : LoadGenerator) (i : Iterations) (s : State) : Prop where
  /-- An iteration that came to its slot has opened it. -/
  length : i.slots.length = s.opened
  /-- It had selected a phase. -/
  selected : ∀ now ∈ i.slots, Selects g s now
  agrees : i.Agrees g s

theorem counts_selected {g : LoadGenerator} {i : Iterations} {s s' : State} {now : ℚ}
    (hc : Counts g i s) (hpc : s.pc = .selecting) (h : Selected g s now s') :
    Counts g (i.add (.dispatcher (.readNow now))) s' := by
  have hagrees := hc.agrees
  simp only [Iterations.Agrees, hpc] at hagrees
  have hloop : i.loop ++ [now] = i.slots ++ [now] := by rw [hagrees]
  cases h with
  | backwards exc hat hlt => exact ⟨hc.length, hc.selected, [now], hloop, le_rfl⟩
  | ended hat => exact ⟨hc.length, hc.selected, [now], hloop, le_rfl⟩
  | same phase hat hcur => exact ⟨hc.length, hc.selected, hloop, phase, hat⟩
  | faulted phase fault hat hcur hfault => exact ⟨hc.length, hc.selected, hloop, phase, hat⟩
  | quiet phase hat hcur hfault => exact ⟨hc.length, hc.selected, hloop, phase, hat⟩

/-- The slot of the iteration that read `now`. -/
theorem counts_slot {g : LoadGenerator} {i : Iterations} {s : State} {now : ℚ}
    (hc : Counts g i s) (hagrees : i.loop = i.slots ++ [now] ∧ Selects g s now) :
    (i.slots ++ i.loop.getLast?.toList).length = s.opened + 1 ∧
      (∀ x ∈ i.slots ++ i.loop.getLast?.toList, Selects g s x) ∧
      i.loop = i.slots ++ i.loop.getLast?.toList := by
  obtain ⟨hloop, hsel⟩ := hagrees
  have hlast : i.loop.getLast?.toList = [now] := by simp [hloop]
  rw [hlast]
  refine ⟨?_, ?_, hloop⟩
  · rw [List.length_append, hc.length, List.length_singleton]
  · intro x hx
    rcases List.mem_append.mp hx with hx | hx
    · exact hc.selected x hx
    · rw [List.mem_singleton.mp hx]
      exact hsel

theorem counts_dispatcher {g : LoadGenerator} {i : Iterations} {s s' : State}
    {a : DispatcherAction} (hc : Counts g i s) (h : DispatcherStep g s a s') :
    Counts g (i.add (.dispatcher a)) s' := by
  have hagrees := hc.agrees
  cases h with
  | readStarted now hpc =>
    simp only [Iterations.Agrees, hpc] at hagrees
    obtain ⟨hloop, hslots⟩ := hagrees
    refine ⟨hc.length, ?_, hloop.trans hslots.symm⟩
    show ∀ x ∈ i.slots, _
    simp [hslots]
  | checkStop hpc =>
    have hloop : i.loop = i.slots := by
      rcases hpc with hpc | hpc <;> simpa only [Iterations.Agrees, hpc] using hagrees
    refine ⟨hc.length, hc.selected, ?_⟩
    cases hstop : s.stop with
    | true => exact ⟨[], hloop.trans (List.append_nil _).symm, Nat.zero_le 1⟩
    | false => exact hloop
  | readNow now s' hpc hsel => exact counts_selected hc hpc hsel
  | armFailed phase fault now result exc hpc herr =>
    simp only [Iterations.Agrees, hpc] at hagrees
    exact ⟨hc.length, hc.selected, [now], hagrees.1, le_rfl⟩
  | putNowait phase now hpc _ | recordDropped phase now hpc =>
    simp only [Iterations.Agrees, hpc] at hagrees
    obtain ⟨hlen, hsel, hloop⟩ := counts_slot hc hagrees
    exact ⟨hlen, hsel, hloop⟩
  | pace phase now clock nextSlot hpc hnext =>
    simp only [Iterations.Agrees, hpc] at hagrees
    by_cases hsleep : nextSlot - clock > 0
    · rw [if_pos hsleep]
      exact ⟨hc.length, hc.selected, hagrees⟩
    · rw [if_neg hsleep]
      exact ⟨hc.length, hc.selected, hagrees⟩
  | submit n hpc | armed phase fault now result hpc _ | putFull phase now hpc _ | wake seconds hpc
  | putShutdown n hpc _ | leave hpc _ | propagate exc hpc _ =>
    -- The iterations are as they were, and so is what the place says of them.
    simp only [Iterations.Agrees, hpc] at hagrees
    exact ⟨hc.length, hc.selected, hagrees⟩

/-- The slots of a run are counted, and their iterations are the run's, up to the last. -/
theorem Run.counts {g : LoadGenerator} {as : List Action} {s : State} (h : Run g as s) :
    Counts g (iterations as) s := by
  refine h.invariant_trace (I := fun as s => Counts g (iterations as) s) ?_ ?_
  · exact ⟨rfl, fun _ h => absurd h List.not_mem_nil, rfl, rfl⟩
  · intro as s a s' hc _ hn
    rw [iterations_snoc]
    cases a with
    | stop =>
      cases hn
      exact ⟨hc.length, hc.selected, hc.agrees⟩
    | dispatcher a => exact counts_dispatcher hc (dispatcherStep_cases hn)
    | worker w a =>
      obtain ⟨_, _, _, _, _, _, -, -, -, -, rfl⟩ := workerStep_cases hn
      exact ⟨hc.length, hc.selected, hc.agrees⟩

theorem Counts.prefix_loop {g : LoadGenerator} {i : Iterations} {s : State}
    (hc : Counts g i s) : i.slots <+: i.loop := by
  have hagrees := hc.agrees
  unfold Iterations.Agrees at hagrees
  cases hpc : s.pc with
  | entering =>
    rw [hpc] at hagrees
    obtain ⟨hloop, hslots⟩ := hagrees
    exact ⟨[], by rw [hloop, hslots, List.append_nil]⟩
  | arming phase fault now | opening phase now | dropping phase now =>
    rw [hpc] at hagrees
    exact ⟨[now], hagrees.1.symm⟩
  | stopping | unwinding | returned | raised =>
    rw [hpc] at hagrees
    obtain ⟨extra, hloop, -⟩ := hagrees
    exact ⟨extra, hloop.symm⟩
  | submitting | looping | selecting | pacing | sleeping =>
    rw [hpc] at hagrees
    exact ⟨[], by rw [List.append_nil, hagrees]⟩

/-! ## The simulation

The driver's `next_slot` is the deadline of the pacer from `pace` on, and between a reading and the
`pace` behind it the pacer is one turn ahead. -/

/-- Each reading of `now` is in relation to `next_slot` as `ok` says, for any gap the slot may
    have. -/
def OnTurn (g : LoadGenerator) (ok : ℚ → Turn ℚ → Prop) (s : State) : Action → Prop
  | .dispatcher (.readNow now) => ∀ phase ∈ g.scenario.phases, ok s.nextSlot ⟨now, 1 / phase.rps⟩
  | _ => True

/-- The deadline of the next iteration, as the local variables determine it. -/
def State.due (s : State) : Option ℚ :=
  match s.pc with
  | .submitting _ | .looping | .selecting | .sleeping _ => some s.nextSlot
  | .arming phase _ now | .opening phase now | .dropping phase now | .pacing phase now =>
      some (max (s.nextSlot + 1 / phase.rps) now)
  | _ => none

/-- The turns `ts` are the iterations so far. -/
structure Paces (g : LoadGenerator) (ok : ℚ → Turn ℚ → Prop) (i : Iterations) (s : State)
    (ts : List (Turn ℚ)) : Prop where
  /-- The turns are the iterations, in order. -/
  times : ts.map Turn.time = i.loop
  /-- The gap of a turn is the interval of some phase. -/
  gaps : ∀ t ∈ ts, ∃ phase ∈ g.scenario.phases, t.gap = 1 / phase.rps
  turns : Turns ok s.started ts
  /-- Where the loop has a deadline, it is the one the turns give. -/
  due : ∀ d ∈ s.due, d = deadline s.started ts

section paces

variable {g : LoadGenerator} {ok : ℚ → Turn ℚ → Prop} {i : Iterations} {s s' : State}
  {ts : List (Turn ℚ)} {now : ℚ}

/-- One more turn. -/
theorem Paces.snoc (hp : Paces g ok i s ts) (hpc : s.pc = .selecting) {phase : Phase}
    (hmem : phase ∈ g.scenario.phases) (hok : ok s.nextSlot ⟨now, 1 / phase.rps⟩)
    (hstarted : s'.started = s.started)
    (hdue : ∀ d ∈ s'.due, d = max (s.nextSlot + 1 / phase.rps) now) :
    Paces g ok (i.add (.dispatcher (.readNow now))) s' (ts ++ [⟨now, 1 / phase.rps⟩]) := by
  have hnext : s.nextSlot = deadline s.started ts := hp.due _ (by simp [State.due, hpc])
  refine ⟨?_, ?_, ?_, ?_⟩
  · rw [List.map_append, hp.times]
    rfl
  · intro t ht
    rcases List.mem_append.mp ht with ht | ht
    · exact hp.gaps t ht
    · rw [List.mem_singleton.mp ht]
      exact ⟨phase, hmem, rfl⟩
  · rw [hstarted, turns_snoc, ← hnext]
    exact ⟨hp.turns, hok⟩
  · intro d hd
    rw [hdue d hd, hstarted, deadline_append, ← hnext]
    rfl

theorem paces_selected (hp : Paces g ok i s ts) (hpc : s.pc = .selecting)
    (hok : OnTurn g ok s (.dispatcher (.readNow now))) (h : Selected g s now s') :
    ∃ ts, Paces g ok (i.add (.dispatcher (.readNow now))) s' ts := by
  have hsome : ∀ phase, g.scenario.phaseAt (now - s.started) = .ok (some phase) →
      phase ∈ g.scenario.phases := fun phase hat => Scenario.mem_of_phaseAt hat
  obtain ⟨first, hfirst⟩ := List.exists_mem_of_ne_nil _ g.scenario.phases_ne
  cases h with
  | backwards exc hat hlt =>
    exact ⟨_, hp.snoc hpc hfirst (hok first hfirst) rfl (by simp [State.due])⟩
  | ended hat => exact ⟨_, hp.snoc hpc hfirst (hok first hfirst) rfl (by simp [State.due])⟩
  | same phase hat hcur | quiet phase hat hcur hfault | faulted phase fault hat hcur hfault =>
    exact ⟨_, hp.snoc hpc (hsome phase hat) (hok phase (hsome phase hat)) rfl
      (by simp [State.due])⟩

/-- A step that leaves the deadline alone. -/
theorem Paces.frame {i' : Iterations} (hp : Paces g ok i s ts) (hloop : i'.loop = i.loop)
    (hstarted : s'.started = s.started) (hdue : ∀ d ∈ s'.due, d ∈ s.due) :
    Paces g ok i' s' ts := by
  refine ⟨hp.times.trans hloop.symm, hp.gaps, ?_, ?_⟩
  · rw [hstarted]
    exact hp.turns
  · intro d hd
    rw [hstarted]
    exact hp.due d (hdue d hd)

theorem paces_dispatcher {a : DispatcherAction} (hp : Paces g ok i s ts) (hc : Counts g i s)
    (hok : OnTurn g ok s (.dispatcher a)) (h : DispatcherStep g s a s') :
    ∃ ts, Paces g ok (i.add (.dispatcher a)) s' ts := by
  cases h with
  | readStarted now hpc =>
    -- The first deadline is the start.
    have hagrees := hc.agrees
    simp only [Iterations.Agrees, hpc] at hagrees
    refine ⟨[], hagrees.1.symm, fun _ h => absurd h List.not_mem_nil, trivial, ?_⟩
    intro d hd
    simpa [State.due, deadline, eq_comm] using hd
  | readNow now s' hpc hsel => exact paces_selected hp hpc hok hsel
  | checkStop hpc =>
    refine ⟨ts, hp.frame rfl rfl ?_⟩
    cases hstop : s.stop with
    | true => simp [State.due]
    | false => rcases hpc with hpc | hpc <;> simp [State.due, hpc]
  | pace phase now clock nextSlot hpc hnext =>
    refine ⟨ts, hp.frame rfl rfl ?_⟩
    by_cases hsleep : nextSlot - clock > 0
    · rw [if_pos hsleep]
      simp [State.due, hpc, hnext]
    · rw [if_neg hsleep]
      simp [State.due, hpc, hnext]
  | submit n hpc | armed phase fault now result hpc _ | armFailed phase fault now result exc hpc _
  | putNowait phase now hpc _ | putFull phase now hpc _ | recordDropped phase now hpc
  | wake seconds hpc | putShutdown n hpc _ | leave hpc _ | propagate exc hpc _ =>
    exact ⟨ts, hp.frame rfl rfl (by simp [State.due, hpc])⟩

/-- The slot number `k` is opened by the turn number `k`. -/
theorem Paces.exists_turn (hp : Paces g ok i s ts) (hc : Counts g i s) {k : ℕ}
    (hk : i.slots[k]? = some now) : ∃ t, ts[k]? = some t ∧ t.time = now := by
  obtain ⟨rest, hrest⟩ := hc.prefix_loop
  have hloop : (ts.map Turn.time)[k]? = some now := by
    rw [hp.times, ← hrest, List.getElem?_append_left (List.getElem?_eq_some_iff.mp hk).1, hk]
  rwa [List.getElem?_map, Option.map_eq_some_iff] at hloop

end paces

/-- **Every run of the driver paces.** -/
theorem exists_turns {g : LoadGenerator} {ok : ℚ → Turn ℚ → Prop} {as : List Action} {s : State}
    (h : Steps (next g) (OnTurn g ok) .init as s) : ∃ ts, Paces g ok (iterations as) s ts := by
  induction h with
  | refl =>
    refine ⟨[], rfl, fun _ h => absurd h List.not_mem_nil, trivial, ?_⟩
    simp [State.due, State.init]
  | snoc hrun hok hn ih =>
    obtain ⟨ts, hp⟩ := ih
    rw [iterations_snoc]
    rename_i s₁ s₂ a
    cases a with
    | stop =>
      cases hn
      exact ⟨ts, hp.frame rfl rfl fun d hd => hd⟩
    | dispatcher a =>
      exact paces_dispatcher hp (Run.counts hrun.anywhere) hok (dispatcherStep_cases hn)
    | worker w a =>
      obtain ⟨_, _, _, _, _, _, -, -, -, -, rfl⟩ := workerStep_cases hn
      exact ⟨ts, hp.frame rfl rfl fun d hd => hd⟩

theorem onTurn_of_paced {g : LoadGenerator} {c : Timed} {a : Action} {s : State}
    (hpaced : c.state.Paced c.time c.due) (hread : ∀ now ∈ a.reading, now = c.time)
    (hnext : next g c.state a = some s) : OnTurn g Waits c.state a := by
  unfold OnTurn
  split
  · rename_i now
    intro phase _
    have hnow : now = c.time := hread now rfl
    cases dispatcherStep_cases (a := .readNow now) hnext with
    | readNow now s hpc hsel =>
      rw [Waits, hnow]
      simpa [State.Paced, hpc] using hpaced
  · trivial

/-- On a clock, no iteration begins before its slot is due. -/
theorem waits_of_timed {g : LoadGenerator} {ok : Timed → TimedAction → Prop} {t : ℚ}
    {as : List TimedAction} {c : Timed} (h : Steps (timedNext g) ok (.init t) as c) :
    Steps (next g) (OnTurn g Waits) .init (untimed as) c.state := by
  induction h with
  | refl => exact .refl
  | snoc hrun _ hn ih =>
    have hpaced := Timed.paced hrun
    unfold untimed at ih ⊢
    rw [List.filterMap_append]
    cases timedNext_cases hn with
    | elapse seconds hpos => simpa using ih
    | act a s hread hwake hnext =>
      rw [Timed.after_state]
      exact .snoc ih (onTurn_of_paced hpaced hread hnext) hnext

end Loadgen
end ObservabilityStack
