import ObservabilityStack.Loadgen.Invariants

/-!
# When `run()` can always go on

A run is *faultless* when no exception leaves the dispatcher's loop: every fault is armed with
a status below 400, and the clock never shows less than at the start. Along a faultless run
some thread can always step until `run()` is over. The argument is the token count: while the
dispatcher waits for room in the queue, or for the pool, a worker is still in, and there is
something in the queue for it.

Along any other run the same count works against the code. The exception leaves the `with`
block past the lines that put the tokens, its exit waits for workers that nothing will ever
tell to stop, and once they have drained the queue no thread can move.

Being able to go on is asked of the state, not of the schedule: there is an action of some thread
that is enabled. A run that can always go on need not be over at any given time, since a scenario
may be long and a request slow; what is excluded is a state in which everybody waits.

The condition names the only two things in the environment that can go wrong, and both are in the
trace: the answer to an arming, and a clock that goes back behind its start. A worker's exception
is neither, since the worker catches it.
-/

set_option autoImplicit false

namespace ObservabilityStack
namespace Loadgen

open Transition

/-- The action lets no exception out of the dispatcher's loop. -/
def Faultless (s : State) : Action → Prop
  | .dispatcher (.arm _ (.status code)) => code < 400
  | .dispatcher (.arm _ (.raised _)) => False
  | .dispatcher (.readNow now) => s.started ≤ now
  | _ => True

/-! ## A worker that is not out can move, if it has something to do

Every place of a worker but the wait for the queue has a move whatever the queue holds. So a state
in which nobody moves is one in which every worker that is in waits for an empty queue. -/

theorem workerMove_enabled {pc : WorkerPc} {q : List Item} {st : Stats} (hpc : pc ≠ .exited)
    (hq : pc = .waiting → q ≠ []) : ∃ a r, workerMove pc q st a = some r := by
  cases pc with
  | waiting =>
    cases q with
    | nil => exact absurd rfl (hq rfl)
    | cons i rest =>
      cases i with
      | slot k => exact ⟨.getSlot k, _, by simp [workerMove]; rfl⟩
      | shutdown => exact ⟨.getShutdown, _, rfl⟩
  | holding k =>
    have hmix : Choosable ⟨"GET", "/api/items", none⟩ := by decide
    exact ⟨.choose ⟨"GET", "/api/items", none⟩ 0, _, by simp only [workerMove, if_pos hmix]; rfl⟩
  | sending k spec started => exact ⟨.send k (.status 200), _, by simp [workerMove]; rfl⟩
  | answered k code started => exact ⟨.record 0, _, rfl⟩
  | failing k exc => exact ⟨.logException, _, rfl⟩
  | exited => exact absurd rfl hpc

theorem worker_canStep {g : LoadGenerator} {s : State} {w : ℕ} {pc : WorkerPc}
    (hw : s.workers[w]? = some pc) (hpc : pc ≠ .exited) (hq : pc = .waiting → s.slots ≠ []) :
    ∃ a s', next g s (.worker w a) = some s' := by
  obtain ⟨a, r, hmove⟩ : ∃ a r, workerMove pc s.slots s.stats a = some r :=
    workerMove_enabled hpc hq
  exact ⟨a, _, workerStep_of_move hw hmove⟩

/-- Somebody is in, and there is something in the queue. -/
theorem canStep_of_tokens {g : LoadGenerator} {s : State} (hq : s.slots ≠ [])
    (hin : s.workers.countP WorkerPc.isExited < s.workers.length) : CanStep g s := by
  obtain ⟨w, pc, hw, hpc⟩ := Threads.exists_of_countP_lt hin
  have hne : pc ≠ .exited := by rintro rfl; simp [WorkerPc.isExited] at hpc
  obtain ⟨a, s', hn⟩ := worker_canStep (g := g) hw hne fun _ => hq
  exact ⟨.worker w a, s', trivial, hn⟩

theorem Inv.canStep_stopping {g : LoadGenerator} {s : State} {n : ℕ} (hi : Inv g s)
    (hpc : s.pc = .stopping n) : CanStep g s := by
  have hpool := hi.pool
  have htok := hi.tokens
  rw [hpc] at hpool htok
  simp only [Pc.submitsLeft, Pc.tokensLeft] at hpool htok
  cases n with
  | zero =>
    -- Every token is put: either all of them are consumed, or one of them is in the queue.
    by_cases hall : ∀ w ∈ s.workers, w = .exited
    · exact ⟨.dispatcher .exitPool, _, trivial,
        by simp only [next, dispatcherStep, if_pos hall, hpc]; rfl⟩
    · have hin : s.workers.countP WorkerPc.isExited < s.workers.length := by
        refine lt_of_le_of_ne List.countP_le_length fun heq => hall fun w hw => ?_
        exact WorkerPc.isExited_iff.mp (List.countP_eq_length.mp heq w hw)
      refine canStep_of_tokens ?_ hin
      intro hnil
      rw [hnil, List.countP_nil] at htok
      omega
  | succ n =>
    by_cases hroom : s.slots.length < g.maxsize
    · exact ⟨.dispatcher .putShutdown, _, trivial,
        by simp only [next, dispatcherStep, hpc, if_pos hroom]; rfl⟩
    · -- The queue is full, so not empty, and at most `workers - (n + 1)` workers are out.
      refine canStep_of_tokens ?_ (by omega)
      intro hnil
      rw [hnil] at hroom
      have hpos : 0 < g.maxsize := Nat.mul_pos g.workers_pos (by decide)
      exact hroom hpos

/-- **A thread can step**, unless the run is over or an exception is propagating. -/
theorem Inv.progress {g : LoadGenerator} {s : State} (hi : Inv g s)
    (hno : ∀ exc, s.pc ≠ .unwinding exc) : Finished s ∨ CanStep g s := by
  cases hpc : s.pc with
  | entering =>
    exact Or.inr ⟨.dispatcher (.readStarted 0), _, trivial,
      by simp [next, dispatcherStep, hpc]; rfl⟩
  | submitting n =>
    cases n with
    | zero =>
      exact Or.inr ⟨.dispatcher .checkStop, _, trivial, by simp [next, dispatcherStep, hpc]; rfl⟩
    | succ n =>
      exact Or.inr ⟨.dispatcher .submit, _, trivial, by simp [next, dispatcherStep, hpc]; rfl⟩
  | looping =>
    exact Or.inr ⟨.dispatcher .checkStop, _, trivial, by simp [next, dispatcherStep, hpc]; rfl⟩
  | selecting =>
    exact Or.inr ⟨.dispatcher (.readNow 0), _, trivial, by simp [next, dispatcherStep, hpc]; rfl⟩
  | arming phase fault now =>
    exact Or.inr ⟨.dispatcher (.arm fault (.status 200)), _, trivial,
      by simp [next, dispatcherStep, hpc, LoadGenerator.arm]; rfl⟩
  -- `put_nowait` never blocks: with no room it raises `Full`, which is a step as well.
  | opening phase now =>
    by_cases hroom : s.slots.length < g.maxsize
    · exact Or.inr ⟨.dispatcher (.putNowait s.opened), _, trivial,
        by simp [next, dispatcherStep, hpc, hroom]; rfl⟩
    · exact Or.inr ⟨.dispatcher .putFull, _, trivial,
        by simp [next, dispatcherStep, hpc, hroom]; rfl⟩
  | dropping phase now =>
    exact Or.inr ⟨.dispatcher .recordDropped, _, trivial, by simp [next, dispatcherStep, hpc]; rfl⟩
  | pacing phase now =>
    exact Or.inr ⟨.dispatcher (.pace 0), _, trivial, by simp [next, dispatcherStep, hpc]; rfl⟩
  | sleeping seconds =>
    exact Or.inr ⟨.dispatcher .wake, _, trivial, by simp [next, dispatcherStep, hpc]; rfl⟩
  -- The one place that can block, on a full queue or on the pool; then a worker can step.
  | stopping n => exact Or.inr (hi.canStep_stopping hpc)
  | unwinding exc => exact absurd hpc (hno exc)
  | returned => exact Or.inl ⟨Or.inl hpc, hi.ended (by rw [hpc]; rfl)⟩
  | raised exc => exact absurd hpc hi.not_raised

/-! ## A faultless run keeps exceptions out of the loop

The two ways into `unwinding` are the two faults, so a run without them never gets there. -/

theorem unwinding_of_next {g : LoadGenerator} {s s' : State} {a : Action} {exc : String}
    (hok : Faultless s a) (h : next g s a = some s') (hpc : s'.pc = .unwinding exc) :
    s.pc = .unwinding exc := by
  cases a with
  | stop => cases h; exact hpc
  | worker w a =>
    exact (workerStep_frame h).1.symm.trans hpc
  | dispatcher a =>
    cases dispatcherStep_cases h with
    | readNow now s' _ hsel =>
      cases hsel with
      | backwards exc _ hlt => exact absurd hok (not_le.mpr hlt)
      | ended | same | faulted | quiet => cases hpc
    | armFailed phase fault now result exc _ herr =>
      cases result with
      | status code =>
        have hsent : LoadGenerator.arm fault (.status code) = .ok () :=
          LoadGenerator.arm_ok_iff.mpr ⟨code, rfl, hok⟩
        cases hsent.symm.trans herr
      | raised exc => exact absurd hok (by simp [Faultless])
    | checkStop =>
      cases hs : s.stop <;> simp [hs] at hpc
    | pace =>
      dsimp only at hpc
      split at hpc <;> cases hpc
    | readStarted | submit | armed | putNowait | putFull | recordDropped | wake | putShutdown
    | leave | propagate => cases hpc

theorem faultless_not_unwinding {g : LoadGenerator} {as : List Action} {s : State}
    (h : Steps (next g) Faultless .init as s) : ∀ exc, s.pc ≠ .unwinding exc := by
  refine h.invariant (I := fun s => ∀ exc, s.pc ≠ .unwinding exc) ?_ ?_
  · intro exc hpc
    cases hpc
  · intro s a s' hi hok hn exc hpc
    exact hi exc (unwinding_of_next hok hn hpc)

theorem unwinding_of_fault {g : LoadGenerator} {s s' : State} {a : Action}
    (hbad : ¬ Faultless s a) (h : next g s a = some s') : ∃ exc, s'.pc = .unwinding exc := by
  cases a with
  | stop => exact absurd trivial hbad
  | worker w a => exact absurd trivial hbad
  | dispatcher a =>
    cases dispatcherStep_cases h with
    | readNow now s' _ hsel =>
      cases hsel with
      | backwards exc => exact ⟨exc, rfl⟩
      | ended hat | same _ hat | faulted _ _ hat | quiet _ hat =>
        -- `phase_at` answered, so the clock was not behind the start.
        refine absurd ?_ hbad
        by_contra hle
        have hneg : now - s.started < 0 := sub_neg.mpr (not_le.mp hle)
        simp only [Scenario.phaseAt, if_pos hneg] at hat
        cases hat
    | armFailed phase fault now result exc => exact ⟨exc, rfl⟩
    | armed phase fault now result _ hok =>
      obtain ⟨code, rfl, hlt⟩ := LoadGenerator.arm_ok_iff.mp hok
      exact absurd hlt hbad
    | readStarted | submit | checkStop | putNowait | putFull | recordDropped | pace | wake
    | putShutdown | leave | propagate => exact absurd trivial hbad

/-- Once an exception propagates, the dispatcher stays in the exit of the block. -/
theorem unwinding_stays {g : LoadGenerator} {s s' : State} {a : Action} {exc : String}
    (hi : Inv g s) (hpc : s.pc = .unwinding exc) (h : next g s a = some s') :
    s'.pc = .unwinding exc := by
  cases a with
  | stop => cases h; exact hpc
  | worker w a =>
    exact (workerStep_frame h).1.trans hpc
  | dispatcher a =>
    obtain ⟨hlen, hin, -⟩ := hi.unwinding hpc
    cases dispatcherStep_cases h with
    | propagate _ _ hall =>
      have hpos := g.workers_pos
      obtain ⟨w, hw⟩ := List.exists_mem_of_length_pos (hlen ▸ hpos)
      exact absurd (hall w hw) (hin w hw)
    | checkStop h' => rcases h' with h' | h' <;> cases hpc.symm.trans h'
    | readStarted _ h' | submit _ h' | readNow _ _ h' | armed _ _ _ _ h' | armFailed _ _ _ _ _ h'
    | putNowait _ _ h' | putFull _ _ h' | recordDropped _ _ h' | pace _ _ _ _ h' | wake _ h'
    | putShutdown _ h' | leave h' => cases hpc.symm.trans h'

/-- A run either was faultless so far, or is waiting in the exit of the block. -/
theorem Run.faultless_or_unwinding {g : LoadGenerator} {as : List Action} {s : State}
    (h : Run g as s) :
    Steps (next g) Faultless .init as s ∨ ∃ exc, s.pc = .unwinding exc := by
  induction h with
  | refl => exact Or.inl .refl
  | @snoc as s₁ s₂ a hrun _ hn ih =>
    rcases ih with hfl | ⟨exc, hpc⟩
    · by_cases hok : Faultless s₁ a
      · exact Or.inl (.snoc hfl hok hn)
      · exact Or.inr (unwinding_of_fault hok hn)
    · exact Or.inr ⟨exc, unwinding_stays (Run.inv hrun) hpc hn⟩

/-! ## After the fault the workers drain the queue, and then nothing moves

The workers have only so much to do. Each of their steps lowers `backlog`, whatever they are
answered, and when it is zero they all wait, with no token to come. -/

/-- How many steps a worker is from `waiting`. -/
def WorkerPc.rank : WorkerPc → ℕ
  | .waiting | .exited => 0
  | .holding _ => 3
  | .sending _ _ _ => 2
  | .answered _ _ _ | .failing _ _ => 1

/-- What the workers have left to do; a slot in the queue is worth more than its service. -/
def backlog (s : State) : ℕ := (s.workers.map WorkerPc.rank).sum + 4 * s.slots.length

theorem backlog_worker {s s' : State} {w : ℕ} {a : WorkerAction}
    (h : workerStep s w a = some s') : backlog s' < backlog s := by
  obtain ⟨pc, q, st, pc', q', st', hpc, hq, -, hmove, rfl⟩ := workerStep_cases h
  have hsum := Threads.sum_set (b := pc') WorkerPc.rank hpc
  have hless : pc'.rank + 4 * q'.length < pc.rank + 4 * q.length := by
    cases hmove <;> simp only [WorkerPc.rank, List.length_cons] <;> omega
  unfold backlog
  rw [hq]
  dsimp only
  omega

/-- With an exception propagating and nothing left to do, no thread can step. -/
theorem not_canStep_of_drained {g : LoadGenerator} {s : State} {exc : String} (hi : Inv g s)
    (hpc : s.pc = .unwinding exc) (hz : backlog s = 0) : ¬ CanStep g s := by
  rintro ⟨a, s', hmine, hn⟩
  cases a with
  | stop => exact hmine
  | worker w a =>
    have hlt := backlog_worker hn
    omega
  | dispatcher a =>
    -- The dispatcher would have to stay where it is, and each of its steps leaves its place.
    have hstay := unwinding_stays hi hpc hn
    cases dispatcherStep_cases hn with
    | checkStop h' => rcases h' with h' | h' <;> cases hpc.symm.trans h'
    | propagate => cases hstay
    | readStarted _ h' | submit _ h' | readNow _ _ h' | armed _ _ _ _ h' | armFailed _ _ _ _ _ h'
    | putNowait _ _ h' | putFull _ _ h' | recordDropped _ _ h' | pace _ _ _ _ h' | wake _ h'
    | putShutdown _ h' | leave h' => cases hpc.symm.trans h'

/-- The workers alone, all of whose actions are faultless, reach such a state. -/
theorem Inv.drains {g : LoadGenerator} {s : State} {exc : String} (hi : Inv g s)
    (hpc : s.pc = .unwinding exc) :
    ∃ bs s', Steps (next g) Faultless s bs s' ∧ (Inv g s' ∧ s'.pc = .unwinding exc) ∧
      backlog s' = 0 := by
  refine Steps.exists_minimal backlog ⟨hi, hpc⟩ ?_
  rintro s ⟨hi, hpc⟩ hz
  obtain ⟨hlen, hin, -⟩ := hi.unwinding hpc
  have hmove : ∃ w a s', next g s (.worker w a) = some s' := by
    by_cases hq : s.slots = []
    · -- Nothing waits in the queue, so some worker has a slot in hand.
      have hsum : (s.workers.map WorkerPc.rank).sum ≠ 0 := by
        simpa [backlog, hq] using hz
      obtain ⟨n, hn, hne⟩ : ∃ n ∈ s.workers.map WorkerPc.rank, n ≠ 0 := by
        by_contra hall
        push Not at hall
        exact hsum (List.sum_eq_zero hall)
      obtain ⟨pc, hmem, rfl⟩ := List.mem_map.mp hn
      obtain ⟨w, hw⟩ := List.mem_iff_getElem?.mp hmem
      refine ⟨w, worker_canStep hw (hin pc hmem) ?_⟩
      rintro rfl
      exact absurd rfl hne
    · have hpos := g.workers_pos
      obtain ⟨pc, hmem⟩ := List.exists_mem_of_length_pos (hlen ▸ hpos)
      obtain ⟨w, hw⟩ := List.mem_iff_getElem?.mp hmem
      exact ⟨w, worker_canStep hw (hin pc hmem) fun _ => hq⟩
  obtain ⟨w, a, s', hn⟩ := hmove
  exact ⟨.worker w a, s', trivial, hn, ⟨inv_next hi hn, unwinding_stays hi hpc hn⟩,
    backlog_worker hn⟩

/-! ## The result

The equivalence is about what can still come of a run, and not about its last state alone: right
after a fault the workers can go on for a while, and only a continuation of that run is stuck. -/

theorem Run.not_finished_of_unwinding {g : LoadGenerator} {as : List Action} {s s' : State}
    {exc : String} (hi : Inv g s) (hpc : s.pc = .unwinding exc)
    (h : Steps (next g) Anywhere s as s') : ¬ Finished s' := by
  have hend : Inv g s' ∧ s'.pc = .unwinding exc :=
    h.invariant (I := fun s => Inv g s ∧ s.pc = .unwinding exc) ⟨hi, hpc⟩
      fun _ _ _ hs _ hn => ⟨inv_next hs.1 hn, unwinding_stays hs.1 hs.2 hn⟩
  rintro ⟨hover, -⟩
  rw [hend.2] at hover
  rcases hover with hover | ⟨exc', hover⟩ <;> cases hover

/-- **A run can always go on exactly as long as it is faultless**: if every step so far was, then
    wherever faultless steps lead from here, the run is over or some thread can step; if one
    was not, the run never ends, and the workers alone lead to a state no thread can leave. -/
theorem run_can_go_on_iff_faultless {g : LoadGenerator} {as : List Action} {s : State}
    (h : Run g as s) :
    (Steps (next g) Faultless .init as s ↔
      ∀ bs s', Steps (next g) Faultless s bs s' → Finished s' ∨ CanStep g s') ∧
    (¬ Steps (next g) Faultless .init as s →
      ∀ bs s', Steps (next g) Anywhere s bs s' → ¬ Finished s') := by
  have hi : Inv g s := h.inv
  refine ⟨⟨?_, ?_⟩, ?_⟩
  · intro hfl bs s' hrest
    have hall := hfl.trans hrest
    exact (Run.inv hall.anywhere).progress (faultless_not_unwinding hall)
  · intro hgo
    rcases h.faultless_or_unwinding with hfl | ⟨exc, hpc⟩
    · exact hfl
    · obtain ⟨bs, s', hrest, ⟨hi', hpc'⟩, hz⟩ := hi.drains hpc
      rcases hgo bs s' hrest with hfin | hcan
      · exact absurd hfin (Run.not_finished_of_unwinding hi hpc hrest.anywhere)
      · exact absurd hcan (not_canStep_of_drained hi' hpc' hz)
  · intro hbad bs s' hrest
    rcases h.faultless_or_unwinding with hfl | ⟨exc, hpc⟩
    · exact absurd hfl hbad
    · exact Run.not_finished_of_unwinding hi hpc hrest

/-! ### A fault endpoint that answers 500

Two workers, and one phase with an error fault to arm. -/

def burst : Phase where
  ref := 1
  name := "burst"
  durationSeconds := 1
  rps := 40
  fault := some ⟨.errors, [("ratio", 1), ("status_code", 503), ("ttl_seconds", 60)]⟩
  duration_pos := by decide
  rps_pos := by decide +kernel

def burstGenerator : LoadGenerator where
  target := "http://svc"
  scenario :=
    { name := "unit", description := "", phases := [burst]
      expectedAlerts := ["ErrorBudgetBurnFast"]
      phases_ne := by simp
      ref_inj := by simp }
  workers := 2
  workers_pos := by decide

def brokenEndpoint : List Action :=
  [.dispatcher (.readStarted 0), .dispatcher .submit, .dispatcher .submit, .dispatcher .checkStop,
   .dispatcher (.readNow 0),
   .dispatcher (.arm ⟨.errors, [("ratio", 1), ("status_code", 503), ("ttl_seconds", 60)]⟩
     (.status 500))]

/-- Where it leaves the generator. -/
def brokenState : State where
  pc := .unwinding "failed to arm fault errors: HTTP 500"
  stop := false
  started := 0
  nextSlot := 0
  current := none
  slots := []
  workers := [.waiting, .waiting]
  stats := .init
  opened := 0

theorem run_brokenEndpoint : Run burstGenerator brokenEndpoint brokenState :=
  steps_of_exec (by decide +kernel)

/-- One worker function is submitted for each worker, the arming fails, and `run()` neither
    returns nor raises: no thread can step. -/
theorem broken_endpoint_deadlocks :
    Run burstGenerator brokenEndpoint brokenState ∧ ¬ Finished brokenState ∧
      ¬ CanStep burstGenerator brokenState :=
  ⟨run_brokenEndpoint,
   Run.not_finished_of_unwinding run_brokenEndpoint.inv rfl .refl,
   not_canStep_of_drained run_brokenEndpoint.inv rfl rfl⟩

theorem run_can_go_on_iff_faultless_broken :
    (Steps (next burstGenerator) Faultless .init brokenEndpoint brokenState ↔
      ∀ bs s', Steps (next burstGenerator) Faultless brokenState bs s' →
        Finished s' ∨ CanStep burstGenerator s') ∧
    (¬ Steps (next burstGenerator) Faultless .init brokenEndpoint brokenState →
      ∀ bs s', Steps (next burstGenerator) Anywhere brokenState bs s' → ¬ Finished s') :=
  run_can_go_on_iff_faultless run_brokenEndpoint

end Loadgen
end ObservabilityStack
