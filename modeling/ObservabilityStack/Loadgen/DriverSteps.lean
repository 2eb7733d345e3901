import ObservabilityStack.Loadgen.Driver

/-!
# What one step of the driver can do

`dispatcherStep` and `workerStep` are read here once. `DispatcherStep g s a s'` and
`WorkerMove` list the possible steps, one constructor for each, with the guard under which it
is taken; `dispatcherStep_cases` and `workerStep_cases` say the lists are complete. Every
invariant of the driver is then a case analysis over these constructors, and no later proof
unfolds the step function to find out what it did.

The layer exists because there is more than one reason to look at a step. A dozen invariants are
kept by this driver, about tokens, slots, statistics, deadlines and faults, and each has to
consider the same fourteen steps of the dispatcher and seven of a worker. With the step functions
unfolded in each of those proofs, the nested matches on the action, the place and the guard would
be taken apart again every time, and a change of the driver would be a change of all of them. Here
it is a change of one constructor, and of the cases that use it.

A constructor says everything about its step: the place before, the guard, and the whole state
afterwards. It is not weaker than the function in any respect, so nothing has to be looked up
elsewhere. For the reading of `now` this is two relations in one another, since what happens
depends on what `phase_at` returns, and only there.

What is left out is the converse. That a listed step is enabled in its state is not part of the
lists; where a proof needs that some thread can move, it shows the step function the action
(`workerStep_of_move` is the form for a worker). Neither is there anything here about time or about
the service: the layers with a clock and with a target take these steps as they are.
-/

set_option autoImplicit false

namespace ObservabilityStack
namespace Loadgen

/-- An arming succeeds when its request is answered, with no error. -/
theorem LoadGenerator.arm_ok_iff {fault : Fault} {result : SendResult} :
    arm fault result = .ok () ↔ ∃ code, result = .status code ∧ code < 400 := by
  cases result with
  | status code => simp [arm]
  | raised exc => simp [arm]

/-- How the reading of `now` ends: the only effects are on the place and on `current`. -/
inductive Selected (g : LoadGenerator) (s : State) (now : ℚ) : State → Prop
  | backwards (exc : String) (hat : g.scenario.phaseAt (now - s.started) = .error exc)
      (hlt : now < s.started) : Selected g s now { s with pc := .unwinding exc }
  | ended (hat : g.scenario.phaseAt (now - s.started) = .ok none) :
      Selected g s now { s with pc := .stopping g.workers }
  | same (phase : Phase) (hat : g.scenario.phaseAt (now - s.started) = .ok (some phase))
      (hcur : s.current.map Phase.ref = some phase.ref) :
      Selected g s now { s with pc := .opening phase now }
  | faulted (phase : Phase) (fault : Fault)
      (hat : g.scenario.phaseAt (now - s.started) = .ok (some phase))
      (hcur : s.current.map Phase.ref ≠ some phase.ref) (hfault : phase.fault = some fault) :
      Selected g s now { s with pc := .arming phase fault now }
  | quiet (phase : Phase) (hat : g.scenario.phaseAt (now - s.started) = .ok (some phase))
      (hcur : s.current.map Phase.ref ≠ some phase.ref) (hfault : phase.fault = none) :
      Selected g s now { s with pc := .opening phase now, current := some phase }

/-- `phase_at` raises on a negative time only, and the time is negative only when the clock has
    gone back. -/
theorem selectPhase_cases (g : LoadGenerator) (s : State) (now : ℚ) :
    Selected g s now (selectPhase g s now) := by
  unfold selectPhase enterPhase
  cases hat : g.scenario.phaseAt (now - s.started) with
  | error exc =>
    -- On a time that is not negative `phase_at` returns.
    have hlt : now < s.started := by
      by_contra hle
      rw [Scenario.phaseAt_of_nonneg _ (sub_nonneg.mpr (not_lt.mp hle))] at hat
      cases hat
    exact .backwards exc hat hlt
  | ok selected =>
    cases selected with
    | none => exact .ended hat
    | some phase =>
      dsimp only
      split
      · exact .same phase hat ‹_›
      · cases hf : phase.fault with
        | none => exact .quiet phase hat ‹_› hf
        | some fault => exact .faulted phase fault hat ‹_› hf

/-- The steps of the dispatcher, in the order of the code. -/
inductive DispatcherStep (g : LoadGenerator) (s : State) : DispatcherAction → State → Prop
  | readStarted (now : ℚ) (hpc : s.pc = .entering) :
      DispatcherStep g s (.readStarted now)
        { s with pc := .submitting g.workers, started := now, nextSlot := now }
  | submit (n : ℕ) (hpc : s.pc = .submitting (n + 1)) :
      DispatcherStep g s .submit
        { s with pc := .submitting n, workers := s.workers ++ [.waiting] }
  | checkStop (hpc : s.pc = .looping ∨ s.pc = .submitting 0) :
      DispatcherStep g s .checkStop
        { s with pc := if s.stop then .stopping g.workers else .selecting }
  | readNow (now : ℚ) (s' : State) (hpc : s.pc = .selecting) (hsel : Selected g s now s') :
      DispatcherStep g s (.readNow now) s'
  | armed (phase : Phase) (fault : Fault) (now : ℚ) (result : SendResult)
      (hpc : s.pc = .arming phase fault now) (hok : LoadGenerator.arm fault result = .ok ()) :
      DispatcherStep g s (.arm fault result)
        { s with pc := .opening phase now, current := some phase }
  | armFailed (phase : Phase) (fault : Fault) (now : ℚ) (result : SendResult) (exc : String)
      (hpc : s.pc = .arming phase fault now)
      (herr : LoadGenerator.arm fault result = .error exc) :
      DispatcherStep g s (.arm fault result) { s with pc := .unwinding exc }
  | putNowait (phase : Phase) (now : ℚ) (hpc : s.pc = .opening phase now)
      (hroom : s.slots.length < g.maxsize) :
      DispatcherStep g s (.putNowait s.opened)
        { s with
          pc := .pacing phase now, slots := s.slots ++ [.slot s.opened], opened := s.opened + 1 }
  | putFull (phase : Phase) (now : ℚ) (hpc : s.pc = .opening phase now)
      (hfull : g.maxsize ≤ s.slots.length) :
      DispatcherStep g s .putFull { s with pc := .dropping phase now }
  | recordDropped (phase : Phase) (now : ℚ) (hpc : s.pc = .dropping phase now) :
      DispatcherStep g s .recordDropped
        { s with
          pc := .pacing phase now, stats := s.stats.recordDropped, opened := s.opened + 1 }
  | pace (phase : Phase) (now clock nextSlot : ℚ) (hpc : s.pc = .pacing phase now)
      (hnext : nextSlot = max (s.nextSlot + 1 / phase.rps) now) :
      DispatcherStep g s (.pace clock)
        { s with
          nextSlot := nextSlot
          pc := if nextSlot - clock > 0 then .sleeping (nextSlot - clock) else .looping }
  | wake (seconds : ℚ) (hpc : s.pc = .sleeping seconds) :
      DispatcherStep g s .wake { s with pc := .looping }
  | putShutdown (n : ℕ) (hpc : s.pc = .stopping (n + 1)) (hroom : s.slots.length < g.maxsize) :
      DispatcherStep g s .putShutdown
        { s with pc := .stopping n, slots := s.slots ++ [.shutdown] }
  | leave (hpc : s.pc = .stopping 0) (hall : ∀ w ∈ s.workers, w = .exited) :
      DispatcherStep g s .exitPool { s with pc := .returned }
  | propagate (exc : String) (hpc : s.pc = .unwinding exc) (hall : ∀ w ∈ s.workers, w = .exited) :
      DispatcherStep g s .exitPool { s with pc := .raised exc }

/-- The list is complete. By the action, and then by the one place where it is enabled. -/
theorem dispatcherStep_cases {g : LoadGenerator} {s s' : State} {a : DispatcherAction}
    (h : dispatcherStep g s a = some s') : DispatcherStep g s a s' := by
  cases a with
  | readStarted now =>
    simp only [dispatcherStep] at h
    split at h <;> cases h
    exact .readStarted now ‹_›
  | submit =>
    simp only [dispatcherStep] at h
    split at h <;> cases h
    exact .submit _ ‹_›
  | checkStop =>
    simp only [dispatcherStep] at h
    split at h <;> cases h
    · exact .checkStop (Or.inl ‹_›)
    · exact .checkStop (Or.inr ‹_›)
  | readNow now =>
    simp only [dispatcherStep] at h
    split at h <;> cases h
    exact .readNow now _ ‹_› (selectPhase_cases g s now)
  -- The action carries the fault it arms, and the guard says it is that of the phase.
  | arm fault result =>
    simp only [dispatcherStep] at h
    split at h
    · rename_i phase fault' now hpc
      split at h
      · rename_i hf
        subst hf
        split at h <;> cases h
        · exact .armed phase fault now result hpc ‹_›
        · exact .armFailed phase fault now result _ hpc ‹_›
      · cases h
    · cases h
  | putNowait k =>
    simp only [dispatcherStep] at h
    split at h
    · rename_i phase now hpc
      split at h
      · rename_i hk
        obtain ⟨hroom, rfl⟩ := hk
        cases h
        exact .putNowait phase now hpc hroom
      · cases h
    · cases h
  | putFull =>
    simp only [dispatcherStep] at h
    split at h
    · split at h
      · cases h
      · cases h
        exact .putFull _ _ ‹_› (not_lt.mp ‹_›)
    · cases h
  | recordDropped =>
    simp only [dispatcherStep] at h
    split at h <;> cases h
    exact .recordDropped _ _ ‹_›
  | pace clock =>
    simp only [dispatcherStep] at h
    split at h <;> cases h
    exact .pace _ _ clock _ ‹_› rfl
  | wake =>
    simp only [dispatcherStep] at h
    split at h <;> cases h
    exact .wake _ ‹_›
  -- `put` blocks on a full queue, so there is no step of it then.
  | putShutdown =>
    simp only [dispatcherStep] at h
    split at h
    · split at h
      · cases h
        exact .putShutdown _ ‹_› ‹_›
      · cases h
    · cases h
  -- The `with` block waits for the workers, then returns or lets the exception go on.
  | exitPool =>
    simp only [dispatcherStep] at h
    split at h
    · rename_i hall
      split at h <;> cases h
      · exact .leave ‹_› hall
      · exact .propagate _ ‹_› hall
    · cases h

/-- The moves of a worker: its place before and after, and the shared objects. -/
inductive WorkerMove : WorkerAction → WorkerPc → List Item → Stats →
    WorkerPc → List Item → Stats → Prop
  | getSlot (k : ℕ) (rest : List Item) (st : Stats) :
      WorkerMove (.getSlot k) .waiting (.slot k :: rest) st (.holding k) rest st
  | getShutdown (rest : List Item) (st : Stats) :
      WorkerMove .getShutdown .waiting (.shutdown :: rest) st .exited rest st
  | choose (k : ℕ) (spec : RequestSpec) (now : ℚ) (q : List Item) (st : Stats)
      (hspec : Choosable spec) :
      WorkerMove (.choose spec now) (.holding k) q st (.sending k spec now) q st
  | sent (k : ℕ) (spec : RequestSpec) (started : ℚ) (code : ℤ) (q : List Item) (st : Stats) :
      WorkerMove (.send k (.status code)) (.sending k spec started) q st
        (.answered k code started) q st
  | sendFailed (k : ℕ) (spec : RequestSpec) (started : ℚ) (exc : String) (q : List Item)
      (st : Stats) :
      WorkerMove (.send k (.raised exc)) (.sending k spec started) q st (.failing k exc) q st
  | record (k : ℕ) (code : ℤ) (started now : ℚ) (q : List Item) (st : Stats) :
      WorkerMove (.record now) (.answered k code started) q st
        .waiting q (st.record code (now - started))
  | logException (k : ℕ) (exc : String) (q : List Item) (st : Stats) :
      WorkerMove .logException (.failing k exc) q st .waiting q st

/-- The list of the moves is complete. -/
theorem workerMove_cases {a : WorkerAction} {pc : WorkerPc} {q : List Item} {st : Stats}
    {r : WorkerPc × List Item × Stats} (h : workerMove pc q st a = some r) :
    WorkerMove a pc q st r.1 r.2.1 r.2.2 := by
  cases a with
  -- The head of the queue has to be the slot the action names.
  | getSlot k =>
    simp only [workerMove] at h
    split at h
    · split at h
      · rename_i hk
        subst hk
        cases h
        exact .getSlot _ _ _
      · cases h
    · cases h
  | getShutdown =>
    simp only [workerMove] at h
    split at h <;> cases h
    exact .getShutdown _ _
  | choose spec now =>
    simp only [workerMove] at h
    split at h
    · split at h <;> cases h
      exact .choose _ spec now _ _ ‹_›
    · cases h
  -- A status goes on to `record`, an exception to `LOG.exception`.
  | send k result =>
    simp only [workerMove] at h
    split at h
    · split at h
      · rename_i hk
        subst hk
        cases result with
        | status code => cases h; exact .sent _ _ _ code _ _
        | raised exc => cases h; exact .sendFailed _ _ _ exc _ _
      · cases h
    · cases h
  | record now =>
    simp only [workerMove] at h
    split at h <;> cases h
    exact .record _ _ _ now _ _
  | logException =>
    simp only [workerMove] at h
    split at h <;> cases h
    exact .logException _ _ _ _

/-- A step of a worker is a move of one worker, and of the shared objects; the others stay where
    they are. -/
theorem workerStep_cases {s s' : State} {w : ℕ} {a : WorkerAction}
    (h : workerStep s w a = some s') :
    ∃ pc q st pc' q' st', s.workers[w]? = some pc ∧ s.slots = q ∧ s.stats = st ∧
      WorkerMove a pc q st pc' q' st' ∧
      s' = { s with workers := s.workers.set w pc', slots := q', stats := st' } := by
  unfold workerStep at h
  split at h
  · cases h
  · rename_i pc hpc
    simp only [Option.map_eq_some_iff] at h
    obtain ⟨⟨pc', q', st'⟩, hmove, rfl⟩ := h
    exact ⟨pc, _, _, pc', q', st', hpc, rfl, rfl, workerMove_cases hmove, rfl⟩

/-- The variables of `run` are the dispatcher's own. -/
theorem workerStep_frame {s s' : State} {w : ℕ} {a : WorkerAction}
    (h : workerStep s w a = some s') :
    s'.pc = s.pc ∧ s'.stop = s.stop ∧ s'.started = s.started ∧ s'.nextSlot = s.nextSlot ∧
      s'.current = s.current := by
  obtain ⟨_, _, _, _, _, _, -, -, -, -, rfl⟩ := workerStep_cases h
  exact ⟨rfl, rfl, rfl, rfl, rfl⟩

/-- A worker at that place can make the move. -/
theorem workerStep_of_move {s : State} {w : ℕ} {a : WorkerAction} {pc : WorkerPc}
    {r : WorkerPc × List Item × Stats} (hpc : s.workers[w]? = some pc)
    (hmove : workerMove pc s.slots s.stats a = some r) :
    workerStep s w a =
      some { s with workers := s.workers.set w r.1, slots := r.2.1, stats := r.2.2 } := by
  simp [workerStep, hpc, hmove]

end Loadgen
end ObservabilityStack
