import ObservabilityStack.Lib.Transition
import ObservabilityStack.Loadgen.Scenarios
import ObservabilityStack.Loadgen.Stats

/-!
# `loadgen/driver.py`: the dispatcher, the slot queue and the workers

`LoadGenerator.run` is one dispatcher thread and `workers` pool threads that share a bounded
FIFO queue and a `Stats` object. The model is a step function: `next g s a` is what the action
`a` does to the state `s`, and `none` when the thread that would take it is elsewhere or
blocked. A step is one interaction with something shared (the queue, the stop event, the
statistics) or with the outside (the clock, the transport); the code between two of them is
local to its thread and belongs to the step before.

Everything the outside decides is data of the action: what the clock shows, what
`transport.send` answers, which request the random mix picks, when `stop()` is called, which
thread moves next. Nothing is assumed about it, so the clock may even run backwards; that is
the one way `phase_at` can raise.

`slots.put_nowait(None)` puts an anonymous `None`. The model numbers the slots in the order
they are opened (`opened` is the next number), which the code does not do and never reads: the
numbers are what "none lost, none sent twice" is about.

## The exit of the `with` block

The block is left on two ways. Normally, after the last `put(_SHUTDOWN)` (`stopping 0`); or by
an exception out of `phase_at` or `arm` (`unwinding`). Both wait for every submitted worker
function to return, and both are the action `exitPool`, enabled when the last worker exited.

The description is detailed where other threads can look. The queue, the statistics and the stop
event are touched in steps of their own, and so is every reading of the clock, since another
reading may come between. What is computed between two of them is in one step, with the later one.
-/

set_option autoImplicit false

namespace ObservabilityStack
namespace Loadgen

/-- A request a worker may send: what it asks for, and the members of its JSON body, if any. -/
structure RequestSpec where
  method : String
  path : String
  body : Option (List (String × ℤ))
  deriving DecidableEq, Repr

/-- `_REQUEST_MIX`: specifications and their weights. -/
def requestMix : List (RequestSpec × ℕ) :=
  [(⟨"GET", "/api/items", none⟩, 6),
   (⟨"GET", "/api/items/1", none⟩, 1),
   (⟨"GET", "/api/items/2", none⟩, 1),
   (⟨"GET", "/api/items/3", none⟩, 1),
   (⟨"POST", "/api/orders", some [("item_id", 2), ("quantity", 1)]⟩, 1)]

/-- What `choose_request` can return. -/
def Choosable (spec : RequestSpec) : Prop := spec ∈ requestMix.map Prod.fst

instance (spec : RequestSpec) : Decidable (Choosable spec) :=
  inferInstanceAs (Decidable (_ ∈ _))

/-- What a call of `transport.send` ends with: a status code, or an `Exception` of that text. -/
inductive SendResult
  | status (code : ℤ)
  | raised (exc : String)
  deriving DecidableEq, Repr

/-- `_QUEUE_SLACK`: how many slots may wait for each worker before one is dropped. -/
def queueSlack : ℕ := 4

/-- The generator, with what `__init__` stores and a run depends on. The transport, the clock and
    the random numbers are the environment of a run; the queue, the statistics and the stop event
    change during it and are in the state. -/
structure LoadGenerator where
  target : String
  scenario : Scenario
  workers : ℕ
  workers_pos : 0 < workers

namespace LoadGenerator

/-- `__init__`, for the two arguments the run depends on. `workers` is checked by
    `ThreadPoolExecutor` when it is given, and the default is at least 4. -/
def new (target : String) (scenario : Scenario) : Option {n : ℕ // 0 < n} → LoadGenerator
  | some n => ⟨Python.rstrip target '/', scenario, n.1, n.2⟩
  | none => ⟨Python.rstrip target '/', scenario, max 4 (scenario.peakRps * 2).floor.toNat,
      lt_of_lt_of_le (by decide) (le_max_left 4 _)⟩

/-- `slots.maxsize`. -/
def maxsize (g : LoadGenerator) : ℕ := g.workers * queueSlack

/-- `arm`, given what its request was answered with. -/
def arm (fault : Fault) : SendResult → Except String Unit
  | .status code =>
      if code ≥ 400 then .error s!"failed to arm fault {fault.kind.text}: HTTP {code}"
      else .ok ()
  | .raised exc => .error exc

end LoadGenerator

/-! ## States

A state is what the threads share, and a place for each of them with its local variables. The
dispatcher's place carries what it will need later: the phase and the time that it has read. -/

/-- An element of the queue: a numbered request slot, or the shutdown token. -/
inductive Item
  | slot (k : ℕ)
  | shutdown
  deriving DecidableEq, Repr

/-- Where the dispatcher is. `submitting n` still has `n` workers to submit, so the loop head is
    `submitting 0` the first time and `looping` later; `stopping n` still has `n` tokens to put. -/
inductive Pc
  | entering
  | submitting (left : ℕ)
  | looping
  | selecting
  | arming (phase : Phase) (fault : Fault) (now : ℚ)
  | opening (phase : Phase) (now : ℚ)
  | dropping (phase : Phase) (now : ℚ)
  | pacing (phase : Phase) (now : ℚ)
  | sleeping (seconds : ℚ)
  | stopping (left : ℕ)
  | unwinding (exc : String)
  | returned
  | raised (exc : String)
  deriving DecidableEq

/-- Where a worker is. From `holding` to `failing` it has a slot in hand. -/
inductive WorkerPc
  | waiting
  | holding (k : ℕ)
  | sending (k : ℕ) (spec : RequestSpec) (started : ℚ)
  | answered (k : ℕ) (status : ℤ) (started : ℚ)
  | failing (k : ℕ) (exc : String)
  | exited
  deriving DecidableEq

/-- The threads and what they share. `current` is the phase that was entered last, `opened` the
    number the next slot is given; the code has no such number, and nothing it does needs one. -/
structure State where
  pc : Pc
  stop : Bool
  started : ℚ
  nextSlot : ℚ
  current : Option Phase
  slots : List Item
  workers : List WorkerPc
  stats : Stats
  opened : ℕ
  deriving DecidableEq

/-- Before the first statement of `run`: no worker is submitted and the clock has not been read. -/
def State.init : State := ⟨.entering, false, 0, 0, none, [], [], .init, 0⟩

/-! ## Actions

An action names the thread and everything that it is told from outside. Two actions of one thread
are never enabled in the same state unless they differ in what is told. -/

/-- A step of the thread that is in `run`. -/
inductive DispatcherAction
  /-- `started = self._clock()` -/
  | readStarted (now : ℚ)
  /-- `pool.submit(self._worker, slots)` -/
  | submit
  /-- `while not self._stop.is_set()` -/
  | checkStop
  /-- `now = self._clock()`, and the choice of the phase -/
  | readNow (now : ℚ)
  | arm (fault : Fault) (result : SendResult)
  /-- `slots.put_nowait(None)` succeeds, with the slot of that number -/
  | putNowait (k : ℕ)
  /-- `slots.put_nowait(None)` raises `queue.Full` -/
  | putFull
  | recordDropped
  /-- `next_slot = max(...)`, and the clock read for `remaining` -/
  | pace (now : ℚ)
  | wake
  | putShutdown
  | exitPool
  deriving DecidableEq

/-- A step of a thread that is in `_worker`. -/
inductive WorkerAction
  | getSlot (k : ℕ)
  | getShutdown
  /-- `choose_request` and the clock read before the call -/
  | choose (spec : RequestSpec) (now : ℚ)
  /-- `transport.send` for that slot ends -/
  | send (k : ℕ) (result : SendResult)
  /-- the clock read after the call, and `stats.record` -/
  | record (now : ℚ)
  | logException
  deriving DecidableEq

/-- A step of any thread; `stop` is a call from outside, which is possible at any time. -/
inductive Action
  | stop
  | dispatcher (a : DispatcherAction)
  | worker (w : ℕ) (a : WorkerAction)
  deriving DecidableEq

/-! ## The step function

By the place of the thread. An action that does not fit it is not enabled, and this is all there is
to blocking: a `put` into a full queue, a `get` from an empty one, the exit of the pool. -/

/-- The dispatcher has asked `phase_at` about `now`: the end of the scenario, or the entry of a
    phase that is not the current object. -/
def enterPhase (g : LoadGenerator) (s : State) (now : ℚ) :
    Except String (Option Phase) → State
  | .error exc => { s with pc := .unwinding exc }
  | .ok none => { s with pc := .stopping g.workers }
  | .ok (some phase) =>
      if s.current.map Phase.ref = some phase.ref then { s with pc := .opening phase now }
      else
        match phase.fault with
        | some fault => { s with pc := .arming phase fault now }
        | none => { s with pc := .opening phase now, current := some phase }

/-- The phase for `now`, as the time since the start of the scenario says. -/
def selectPhase (g : LoadGenerator) (s : State) (now : ℚ) : State :=
  enterPhase g s now (g.scenario.phaseAt (now - s.started))

/-- The dispatcher, place by place. An action with another place than the one it belongs to is not
    enabled. -/
def dispatcherStep (g : LoadGenerator) (s : State) : DispatcherAction → Option State
  | .readStarted now =>
      match s.pc with
      | .entering => some { s with pc := .submitting g.workers, started := now, nextSlot := now }
      | _ => none
  | .submit =>
      match s.pc with
      | .submitting (n + 1) =>
          some { s with pc := .submitting n, workers := s.workers ++ [.waiting] }
      | _ => none
  | .checkStop =>
      match s.pc with
      | .looping | .submitting 0 =>
          some { s with pc := if s.stop then .stopping g.workers else .selecting }
      | _ => none
  | .readNow now =>
      match s.pc with
      | .selecting => some (selectPhase g s now)
      | _ => none
  | .arm fault result =>
      match s.pc with
      | .arming phase fault' now =>
          if fault = fault' then
            match LoadGenerator.arm fault result with
            | .ok () => some { s with pc := .opening phase now, current := some phase }
            | .error exc => some { s with pc := .unwinding exc }
          else none
      | _ => none
  | .putNowait k =>
      match s.pc with
      | .opening phase now =>
          if s.slots.length < g.maxsize ∧ k = s.opened then
            some { s with
              pc := .pacing phase now, slots := s.slots ++ [.slot k], opened := s.opened + 1 }
          else none
      | _ => none
  | .putFull =>
      match s.pc with
      | .opening phase now =>
          if s.slots.length < g.maxsize then none else some { s with pc := .dropping phase now }
      | _ => none
  | .recordDropped =>
      match s.pc with
      | .dropping phase now =>
          some { s with
            pc := .pacing phase now, stats := s.stats.recordDropped, opened := s.opened + 1 }
      | _ => none
  | .pace clock =>
      match s.pc with
      | .pacing phase now =>
          let nextSlot := max (s.nextSlot + 1 / phase.rps) now
          let remaining := nextSlot - clock
          some { s with
            nextSlot := nextSlot
            pc := if remaining > 0 then .sleeping remaining else .looping }
      | _ => none
  | .wake =>
      match s.pc with
      | .sleeping _ => some { s with pc := .looping }
      | _ => none
  | .putShutdown =>
      match s.pc with
      | .stopping (n + 1) =>
          if s.slots.length < g.maxsize then
            some { s with pc := .stopping n, slots := s.slots ++ [.shutdown] }
          else none
      | _ => none
  | .exitPool =>
      if ∀ w ∈ s.workers, w = .exited then
        match s.pc with
        | .stopping 0 => some { s with pc := .returned }
        | .unwinding exc => some { s with pc := .raised exc }
        | _ => none
      else none

/-- What the action of a worker at `pc` does: its new place, and the queue and statistics. -/
def workerMove (pc : WorkerPc) (slots : List Item) (stats : Stats) :
    WorkerAction → Option (WorkerPc × List Item × Stats)
  | .getSlot k =>
      match pc, slots with
      | .waiting, .slot k' :: rest => if k = k' then some (.holding k, rest, stats) else none
      | _, _ => none
  | .getShutdown =>
      match pc, slots with
      | .waiting, .shutdown :: rest => some (.exited, rest, stats)
      | _, _ => none
  | .choose spec now =>
      match pc with
      | .holding k => if Choosable spec then some (.sending k spec now, slots, stats) else none
      | _ => none
  | .send k result =>
      match pc with
      | .sending k' _ started =>
          if k = k' then
            match result with
            | .status code => some (.answered k code started, slots, stats)
            | .raised exc => some (.failing k exc, slots, stats)
          else none
      | _ => none
  | .record now =>
      match pc with
      | .answered _ status started => some (.waiting, slots, stats.record status (now - started))
      | _ => none
  | .logException =>
      match pc with
      | .failing _ _ => some (.waiting, slots, stats)
      | _ => none

/-- The worker moves, and what it has changed of the queue and the statistics is put back. -/
def workerStep (s : State) (w : ℕ) (a : WorkerAction) : Option State :=
  match s.workers[w]? with
  | none => none
  | some pc =>
      (workerMove pc s.slots s.stats a).map fun r =>
        { s with workers := s.workers.set w r.1, slots := r.2.1, stats := r.2.2 }

/-- One step of one thread. -/
def next (g : LoadGenerator) (s : State) : Action → Option State
  | .stop => some { s with stop := true }
  | .dispatcher a => dispatcherStep g s a
  | .worker w a => workerStep s w a

/-- A run of `run()`: any interleaving, any environment. -/
def Run (g : LoadGenerator) (as : List Action) (s : State) : Prop :=
  Transition.Steps (next g) Transition.Anywhere .init as s

/-- `run()` is over and every worker function has returned. -/
def Finished (s : State) : Prop :=
  (s.pc = .returned ∨ ∃ exc, s.pc = .raised exc) ∧ ∀ w ∈ s.workers, w = .exited

/-- The step belongs to a thread of the generator; `stop()` is called from outside. -/
def Action.OfThread : Action → Prop
  | .stop => False
  | _ => True

/-- Some thread of the generator can take a step. -/
def CanStep (g : LoadGenerator) (s : State) : Prop :=
  ∃ a s', a.OfThread ∧ next g s a = some s'

end Loadgen
end ObservabilityStack
