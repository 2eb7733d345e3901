import ObservabilityStack.Lib.Threads
import ObservabilityStack.Loadgen.DriverSteps

/-!
# What holds in every reachable state of the driver

Two counts decide everything about the end of a run. The pool is complete once the dispatcher
has nothing left to submit. And of the `workers` shutdown tokens, each is in exactly one of
three places: still to be put (`tokensLeft`), in the queue, or consumed by a worker that has
exited. The second count is stated for *every* place of the dispatcher, with all tokens still
to be put before `stopping`, and also while an exception is propagating: an exception leaves
the loop past the lines that put them.

The counts are what makes the exit of the pool decidable from the state. A dispatcher that waits
for room has tokens left to put, so a worker is in; one that waits for the pool has put them all,
so every worker that is in will find one. Neither argument looks at the history.
-/

set_option autoImplicit false

namespace ObservabilityStack
namespace Loadgen

open Transition

def Item.isSlot : Item → Bool
  | .slot _ => true
  | .shutdown => false

def Item.isShutdown : Item → Bool
  | .slot _ => false
  | .shutdown => true

def WorkerPc.isExited : WorkerPc → Bool
  | .exited => true
  | _ => false

/-- The worker has a slot in hand. -/
def WorkerPc.isHeld : WorkerPc → Bool
  | .waiting | .exited => false
  | _ => true

theorem WorkerPc.isExited_iff {pc : WorkerPc} : pc.isExited = true ↔ pc = .exited := by
  cases pc <;> simp [isExited]

namespace Pc

def submitsLeft (workers : ℕ) : Pc → ℕ
  | .entering => workers
  | .submitting n => n
  | _ => 0

def tokensLeft (workers : ℕ) : Pc → ℕ
  | .stopping n => n
  | .returned => 0
  | _ => workers

/-- `run()` has returned or raised. -/
def isOver : Pc → Bool
  | .returned | .raised _ => true
  | _ => false

end Pc

/-- The reading of `now` moves the dispatcher and nothing else, never to the end of `run()`. -/
theorem Selected.frame {g : LoadGenerator} {s s' : State} {now : ℚ} (h : Selected g s now s') :
    s'.slots = s.slots ∧ s'.workers = s.workers ∧ s'.stats = s.stats ∧ s'.opened = s.opened ∧
      s'.pc.submitsLeft g.workers = 0 ∧ s'.pc.tokensLeft g.workers = g.workers ∧
      s'.pc.isOver = false := by
  cases h <;> exact ⟨rfl, rfl, rfl, rfl, rfl, rfl, rfl⟩

/-! ## The invariant of the state

By the two kinds of step. A step of the dispatcher moves tokens from `tokensLeft` to the queue, and
a step of a worker from the queue to the workers that are out. -/

structure Inv (g : LoadGenerator) (s : State) : Prop where
  /-- The workers that were submitted, and those still to be. -/
  pool : s.workers.length + s.pc.submitsLeft g.workers = g.workers
  /-- The tokens in the queue, those that were consumed, and those still to be put. -/
  tokens : s.slots.countP Item.isShutdown + s.workers.countP WorkerPc.isExited +
    s.pc.tokensLeft g.workers = g.workers
  /-- `run` is only over when every worker is out. -/
  ended : s.pc.isOver = true → ∀ w ∈ s.workers, w = .exited
  stats : s.stats.Consistent

theorem inv_init (g : LoadGenerator) : Inv g .init :=
  ⟨by simp [State.init, Pc.submitsLeft], by simp [State.init, Pc.tokensLeft],
   by simp [State.init], Stats.consistent_init⟩

theorem inv_dispatcher {g : LoadGenerator} {s s' : State} {a : DispatcherAction} (hi : Inv g s)
    (h : DispatcherStep g s a s') : Inv g s' := by
  obtain ⟨hpool, htok, hover, hstats⟩ := hi
  cases h with
  | readStarted _ hpc | wake _ hpc | armed _ _ _ _ hpc _ | armFailed _ _ _ _ _ hpc _
  | putFull _ _ hpc _ =>
    rw [hpc] at hpool htok
    exact ⟨hpool, htok, by simp [Pc.isOver], hstats⟩
  | submit n hpc =>
    rw [hpc] at hpool htok
    refine ⟨?_, ?_, by simp [Pc.isOver], hstats⟩
    · simp only [Pc.submitsLeft] at hpool ⊢
      simp only [List.length_append, List.length_singleton]
      omega
    · rw [List.countP_append]
      exact htok
  -- The pool is full and no token is out, whether the loop was entered just now or before.
  | checkStop hpc =>
    have hsub : s.pc.submitsLeft g.workers = 0 ∧ s.pc.tokensLeft g.workers = g.workers := by
      rcases hpc with hpc | hpc <;> rw [hpc] <;> exact ⟨rfl, rfl⟩
    rw [hsub.1] at hpool
    rw [hsub.2] at htok
    cases s.stop
    · exact ⟨hpool, htok, by simp [Pc.isOver], hstats⟩
    · exact ⟨hpool, htok, by simp [Pc.isOver], hstats⟩
  | readNow now s' hpc hsel =>
    obtain ⟨hq, hw, hst, -, hsub, htl, hov⟩ := hsel.frame
    rw [hpc] at hpool htok
    refine ⟨?_, ?_, by simp [hov], hst ▸ hstats⟩
    · rw [hw, hsub]; exact hpool
    · rw [hq, hw, htl]; exact htok
  | putNowait _ _ hpc _ =>
    rw [hpc] at hpool htok
    refine ⟨hpool, ?_, by simp [Pc.isOver], hstats⟩
    rw [List.countP_append]
    exact htok
  | recordDropped _ _ hpc =>
    rw [hpc] at hpool htok
    exact ⟨hpool, htok, by simp [Pc.isOver], Stats.consistent_recordDropped hstats⟩
  | pace _ _ _ _ hpc _ =>
    rw [hpc] at hpool htok
    split
    · exact ⟨hpool, htok, by simp [Pc.isOver], hstats⟩
    · exact ⟨hpool, htok, by simp [Pc.isOver], hstats⟩
  -- One token fewer to put, one more in the queue.
  | putShutdown n hpc _ =>
    rw [hpc] at hpool htok
    refine ⟨hpool, ?_, by simp [Pc.isOver], hstats⟩
    simp only [Pc.tokensLeft] at htok ⊢
    simp only [List.countP_append, List.countP_singleton, Item.isShutdown, if_true]
    omega
  | leave hpc hall =>
    rw [hpc] at hpool htok
    exact ⟨hpool, htok, fun _ => hall, hstats⟩
  | propagate exc hpc hall =>
    rw [hpc] at hpool htok
    exact ⟨hpool, htok, fun _ => hall, hstats⟩

theorem inv_worker {g : LoadGenerator} {s s' : State} {w : ℕ} {a : WorkerAction} (hi : Inv g s)
    (h : workerStep s w a = some s') : Inv g s' := by
  obtain ⟨hpool, htok, hover, hstats⟩ := hi
  obtain ⟨pc, q, st, pc', q', st', hpc, hq, hst, hmove, rfl⟩ := workerStep_cases h
  rw [hq] at htok
  rw [hst] at hstats
  have hcount := Threads.countP_set (b := pc') WorkerPc.isExited hpc
  have hnot : pc ≠ .exited := by
    rintro rfl
    cases hmove
  refine ⟨by simpa using hpool, ?_, ?_, ?_⟩
  · -- `getShutdown` moves a token from the queue to the workers that are out.
    cases hmove <;>
      simp only [WorkerPc.isExited, Item.isShutdown, List.countP_cons, Bool.toNat_false,
        Bool.toNat_true, if_true, Bool.false_eq_true, if_false] at hcount htok ⊢ <;> omega
  · -- A pool whose workers have all exited has no worker left to move.
    intro hov
    exact absurd (hover hov pc (List.mem_of_getElem? hpc)) hnot
  · cases hmove <;> first | exact hstats | exact Stats.consistent_record hstats _ _

theorem inv_next {g : LoadGenerator} {s s' : State} {a : Action} (hi : Inv g s)
    (h : next g s a = some s') : Inv g s' := by
  cases a with
  | stop =>
    cases h
    exact ⟨hi.pool, hi.tokens, hi.ended, hi.stats⟩
  | dispatcher a => exact inv_dispatcher hi (dispatcherStep_cases h)
  | worker w a => exact inv_worker hi h

theorem Run.inv {g : LoadGenerator} {as : List Action} {s : State} (h : Run g as s) : Inv g s :=
  h.invariant (inv_init g) fun _ _ _ hi _ hn => inv_next hi hn

/-! ## Consequences at the two ends of the `with` block

What the counts say where the dispatcher waits. -/

/-- While an exception propagates, no worker has exited, and none ever will. -/
theorem Inv.unwinding {g : LoadGenerator} {s : State} {exc : String} (hi : Inv g s)
    (hpc : s.pc = .unwinding exc) :
    s.workers.length = g.workers ∧ (∀ w ∈ s.workers, w ≠ .exited) ∧
      ∀ i ∈ s.slots, i.isShutdown = false := by
  have hpool := hi.pool
  have htok := hi.tokens
  rw [hpc] at hpool htok
  simp only [Pc.submitsLeft, Pc.tokensLeft] at hpool htok
  refine ⟨by omega, ?_, ?_⟩
  · have hz : s.workers.countP WorkerPc.isExited = 0 := by omega
    intro w hw hex
    exact List.countP_eq_zero.mp hz w hw (WorkerPc.isExited_iff.mpr hex)
  · have hz : s.slots.countP Item.isShutdown = 0 := by omega
    intro i hmem
    simpa using List.countP_eq_zero.mp hz i hmem

/-- `run()` never ends by raising: the exit of the block would have to see all workers out. -/
theorem Inv.not_raised {g : LoadGenerator} {s : State} {exc : String} (hi : Inv g s) :
    s.pc ≠ .raised exc := by
  intro hpc
  have hpool := hi.pool
  have htok := hi.tokens
  have hall := hi.ended (by rw [hpc]; rfl)
  rw [hpc] at hpool htok
  simp only [Pc.submitsLeft, Pc.tokensLeft] at hpool htok
  have hlen : s.workers.countP WorkerPc.isExited = s.workers.length :=
    List.countP_eq_length.mpr fun w hw => WorkerPc.isExited_iff.mpr (hall w hw)
  have hw := g.workers_pos
  omega

end Loadgen
end ObservabilityStack
