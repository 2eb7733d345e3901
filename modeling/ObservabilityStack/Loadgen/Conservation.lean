import ObservabilityStack.Loadgen.Invariants

/-!
# No request slot is lost or sent twice

The ledger of a run has five columns: a slot that was opened was dropped, waits in the queue,
is in a worker's hands, was answered and recorded, or its send raised and was logged. `Ledger`
is the equation between the columns; the failures are read off the trace, since the code keeps
no count of them.

Counts alone would allow a slot lost and another sent twice, so `Delivery` follows each slot by
its number: as often as it was accepted, it was either attempted already or is still ahead of
its attempt. Numbers are given out once, so at the end, with nothing ahead of its attempt, the
slots attempted are the slots accepted, each once.

Both accounts are kept of any run, with an adversary for a scheduler and for a transport: threads
move in any order, requests take any time and end in any way, and `stop()` may be called at any
moment. What ends a run is not assumed to be reached. That it is, is a question of its own.
-/

set_option autoImplicit false

namespace ObservabilityStack
namespace Loadgen

open Transition

/-! ## Readings of a trace

What has happened is in the trace, and not in the state. These read the numbers of slots off it,
and `snoc` lemmas say what one more action adds. -/

def Action.isLogged : Action → Bool
  | .worker _ .logException => true
  | _ => false

/-- The sends that raised and were logged. -/
def loggedFailures (as : List Action) : ℕ := as.countP Action.isLogged

def Action.accepted? : Action → Option ℕ
  | .dispatcher (.putNowait k) => some k
  | _ => none

/-- The slots the queue took, in order. -/
def accepted (as : List Action) : List ℕ := as.filterMap Action.accepted?

def Action.attempted? : Action → Option ℕ
  | .worker _ (.send k _) => some k
  | _ => none

/-- The slots for which `transport.send` was called to its end, in order. -/
def attempted (as : List Action) : List ℕ := as.filterMap Action.attempted?

/-- The shutdown tokens worker `w` has taken from the queue. -/
def tokensTaken (w : ℕ) (as : List Action) : ℕ := as.count (.worker w .getShutdown)

/-! ## The ledger

One equation over natural numbers, kept by every step because a step moves a slot from one column
to another. -/

def Ledger (as : List Action) (s : State) : Prop :=
  s.opened = s.stats.dropped + s.slots.countP Item.isSlot + s.workers.countP WorkerPc.isHeld +
    s.stats.sent + loggedFailures as

theorem loggedFailures_snoc (as : List Action) (a : Action) :
    loggedFailures (as ++ [a]) = loggedFailures as + (Action.isLogged a).toNat := by
  cases h : Action.isLogged a <;> simp [loggedFailures, h]

theorem ledger_dispatcher {g : LoadGenerator} {as : List Action} {s s' : State}
    {a : DispatcherAction} (hl : Ledger as s) (h : DispatcherStep g s a s') :
    Ledger (as ++ [.dispatcher a]) s' := by
  unfold Ledger at hl ⊢
  rw [loggedFailures_snoc]
  simp only [Action.isLogged, Bool.toNat_false, Nat.add_zero]
  cases h with
  -- Only these touch a column of the ledger.
  | submit | putNowait | putShutdown | recordDropped =>
    simp only [List.countP_append, List.countP_singleton, Item.isSlot, WorkerPc.isHeld, if_true,
      Bool.false_eq_true, if_false, Stats.dropped_recordDropped, Stats.sent_recordDropped]
    omega
  | readNow now s' hpc hsel =>
    obtain ⟨hq, hw, hst, hop, -⟩ := hsel.frame
    rw [hq, hw, hst, hop]
    exact hl
  | readStarted | checkStop | armed | armFailed | putFull | pace | wake | leave | propagate =>
    exact hl

theorem ledger_worker {as : List Action} {s s' : State} {w : ℕ} {a : WorkerAction}
    (hl : Ledger as s) (h : workerStep s w a = some s') :
    Ledger (as ++ [.worker w a]) s' := by
  obtain ⟨pc, q, st, pc', q', st', hpc, hq, hst, hmove, rfl⟩ := workerStep_cases h
  have hcount := Threads.countP_set (b := pc') WorkerPc.isHeld hpc
  unfold Ledger at hl ⊢
  rw [loggedFailures_snoc]
  rw [hq, hst] at hl
  dsimp only
  cases hmove <;>
    simp only [Action.isLogged, WorkerPc.isHeld, Item.isSlot, List.countP_cons, Bool.toNat_false,
      Bool.toNat_true, if_true, Bool.false_eq_true, if_false, Stats.sent_record,
      Stats.dropped_record] at hcount hl ⊢ <;>
    omega

theorem Run.ledger {g : LoadGenerator} {as : List Action} {s : State} (h : Run g as s) :
    Ledger as s := by
  refine h.invariant_trace (I := Ledger) rfl ?_
  intro as s a s' hl _ hn
  cases a with
  | stop =>
    cases hn
    unfold Ledger
    rw [loggedFailures_snoc]
    exact hl
  | dispatcher a => exact ledger_dispatcher hl (dispatcherStep_cases hn)
  | worker w a => exact ledger_worker hl hn

/-! ## Every slot by its number

The same account for each number. `ahead` counts where a slot still is, in the queue or with a
worker; numbers are given out in order, so one that is not given out yet is nowhere. -/

/-- Worker at `pc` has slot `k` in hand and has not finished sending it. -/
def WorkerPc.ahead (k : ℕ) : WorkerPc → ℕ
  | .holding k' => if k' = k then 1 else 0
  | .sending k' _ _ => if k' = k then 1 else 0
  | _ => 0

structure Delivery (as : List Action) (s : State) : Prop where
  /-- A slot that was accepted was attempted, or is still ahead of its attempt. -/
  count : ∀ k, (accepted as).count k =
    (attempted as).count k + (s.workers.map (WorkerPc.ahead k)).sum + s.slots.count (.slot k)
  /-- Numbers are given out in order… -/
  fresh : ∀ k ∈ accepted as, k < s.opened
  /-- …and once. -/
  nodup : (accepted as).Nodup

theorem accepted_snoc (as : List Action) (a : Action) :
    accepted (as ++ [a]) = accepted as ++ (Action.accepted? a).toList := by
  cases h : Action.accepted? a <;> simp [accepted, h]

theorem attempted_snoc (as : List Action) (a : Action) :
    attempted (as ++ [a]) = attempted as ++ (Action.attempted? a).toList := by
  cases h : Action.attempted? a <;> simp [attempted, h]

/-- An action that accepts nothing and attempts nothing, and leaves queue and workers alone. -/
theorem Delivery.frame {as : List Action} {s s' : State} {a : Action} (hd : Delivery as s)
    (hacc : Action.accepted? a = none) (hatt : Action.attempted? a = none)
    (hcount : ∀ k, (s'.workers.map (WorkerPc.ahead k)).sum + s'.slots.count (.slot k) =
      (s.workers.map (WorkerPc.ahead k)).sum + s.slots.count (.slot k))
    (hopened : s.opened ≤ s'.opened) : Delivery (as ++ [a]) s' where
  count k := by
    rw [accepted_snoc, attempted_snoc, hacc, hatt]
    simp only [Option.toList_none, List.append_nil]
    have hk := hd.count k
    have hk' := hcount k
    omega
  fresh k hk := by
    rw [accepted_snoc, hacc] at hk
    simp only [Option.toList_none, List.append_nil] at hk
    exact lt_of_lt_of_le (hd.fresh k hk) hopened
  nodup := by
    rw [accepted_snoc, hacc]
    simpa using hd.nodup

theorem delivery_dispatcher {g : LoadGenerator} {as : List Action} {s s' : State}
    {a : DispatcherAction} (hd : Delivery as s) (h : DispatcherStep g s a s') :
    Delivery (as ++ [.dispatcher a]) s' := by
  cases h with
  | putNowait phase now hpc hroom =>
    refine ⟨?_, ?_, ?_⟩
    · intro k
      have hk := hd.count k
      rw [accepted_snoc, attempted_snoc]
      simp only [Action.accepted?, Action.attempted?, Option.toList_some, Option.toList_none,
        List.append_nil, List.count_append, List.count_singleton, beq_iff_eq, Item.slot.injEq]
      omega
    · intro k hk
      rw [accepted_snoc] at hk
      rcases List.mem_append.mp hk with hk | hk
      · exact Nat.lt_succ_of_lt (hd.fresh k hk)
      · rw [List.mem_singleton.mp hk]
        exact Nat.lt_succ_self _
    · -- The number given to this slot is larger than all the numbers given before.
      rw [accepted_snoc]
      refine List.nodup_append.mpr ⟨hd.nodup, List.nodup_singleton _, ?_⟩
      intro k hk k' hk' heq
      rw [List.mem_singleton.mp hk'] at heq
      exact absurd (hd.fresh k hk) (by omega)
  -- A new worker holds no slot, and a token is not one either.
  | submit n hpc =>
    refine hd.frame rfl rfl ?_ le_rfl
    intro k
    simp [WorkerPc.ahead]
  | putShutdown n hpc hroom =>
    refine hd.frame rfl rfl ?_ le_rfl
    intro k
    simp
  | recordDropped phase now hpc => exact hd.frame rfl rfl (fun _ => rfl) (Nat.le_succ _)
  | readNow now s' hpc hsel =>
    obtain ⟨hq, hw, -, hop, -⟩ := hsel.frame
    refine hd.frame rfl rfl ?_ hop.ge
    intro k
    rw [hq, hw]
  | readStarted | checkStop | armed | armFailed | putFull | pace | wake | leave | propagate =>
    exact hd.frame rfl rfl (fun _ => rfl) le_rfl

theorem delivery_worker {as : List Action} {s s' : State} {w : ℕ} {a : WorkerAction}
    (hd : Delivery as s) (h : workerStep s w a = some s') :
    Delivery (as ++ [.worker w a]) s' := by
  obtain ⟨pc, q, st, pc', q', st', hpc, hq, -, hmove, rfl⟩ := workerStep_cases h
  have hsum := fun k => Threads.sum_set (b := pc') (WorkerPc.ahead k) hpc
  have hcount := hd.count
  refine ⟨?_, ?_, ?_⟩
  · intro k
    have hk := hcount k
    have hs := hsum k
    rw [hq] at hk
    rw [accepted_snoc, attempted_snoc]
    -- `getSlot` moves a slot from the queue into a hand, `send` from the hand to the attempts.
    cases hmove <;>
      simp only [Action.accepted?, Action.attempted?, Option.toList_some, Option.toList_none,
        List.append_nil, List.count_append, List.count_cons, List.count_nil, beq_iff_eq,
        Item.slot.injEq, reduceCtorEq, if_false, WorkerPc.ahead] at hk hs ⊢ <;>
      omega
  · intro k hk
    rw [accepted_snoc] at hk
    exact hd.fresh k (by simpa [Action.accepted?] using hk)
  · rw [accepted_snoc]
    simpa [Action.accepted?] using hd.nodup

theorem Run.delivery {g : LoadGenerator} {as : List Action} {s : State} (h : Run g as s) :
    Delivery as s := by
  have h₀ : Delivery [] State.init :=
    ⟨fun k => by simp [accepted, attempted, State.init], by simp [accepted], List.nodup_nil⟩
  refine h.invariant_trace h₀ ?_
  intro as s a s' hd _ hn
  cases a with
  | stop =>
    cases hn
    exact hd.frame rfl rfl (fun _ => rfl) le_rfl
  | dispatcher a => exact delivery_dispatcher hd (dispatcherStep_cases hn)
  | worker w a => exact delivery_worker hd hn

/-! ## The shutdown tokens stand behind the slots

The dispatcher puts its tokens when it puts no more slots, and the queue is first in, first out. So
the worker that takes a token leaves no slot behind it that nobody would take. -/

/-- Behind a token there are only tokens, and once one has been consumed nothing else is left. -/
structure Fifo (s : State) : Prop where
  /-- Behind a token there are only tokens. -/
  sorted : s.slots.Pairwise fun i j => i.isShutdown = true → j.isShutdown = true
  /-- When a worker is out, all slots have been taken. -/
  drained : 0 < s.workers.countP WorkerPc.isExited → ∀ i ∈ s.slots, i.isShutdown = true

theorem fifo_dispatcher {g : LoadGenerator} {s s' : State} {a : DispatcherAction} (hi : Inv g s)
    (hf : Fifo s) (h : DispatcherStep g s a s') : Fifo s' := by
  obtain ⟨hsorted, hdrained⟩ := hf
  cases h with
  | putNowait phase now hpc hroom =>
    -- All tokens are still to be put: none is in the queue, and none was consumed.
    have htok := hi.tokens
    rw [hpc] at htok
    simp only [Pc.tokensLeft] at htok
    have hq : s.slots.countP Item.isShutdown = 0 := by omega
    refine ⟨?_, ?_⟩
    · refine List.pairwise_append.mpr ⟨hsorted, List.pairwise_singleton _ _, ?_⟩
      intro i hmem j _ hsh
      exact absurd hsh (List.countP_eq_zero.mp hq i hmem)
    · intro hpos
      dsimp only at hpos
      omega
  | putShutdown n hpc hroom =>
    refine ⟨?_, ?_⟩
    · refine List.pairwise_append.mpr ⟨hsorted, List.pairwise_singleton _ _, ?_⟩
      intro i _ j hj _
      rw [List.mem_singleton.mp hj]
      rfl
    · intro hpos i hmem
      rcases List.mem_append.mp hmem with hmem | hmem
      · exact hdrained hpos i hmem
      · rw [List.mem_singleton.mp hmem]
        rfl
  | submit n hpc =>
    refine ⟨hsorted, ?_⟩
    rw [List.countP_append]
    exact hdrained
  | readNow now s' hpc hsel =>
    obtain ⟨hq, hw, -⟩ := hsel.frame
    refine ⟨hq ▸ hsorted, ?_⟩
    rw [hq, hw]
    exact hdrained
  | readStarted | checkStop | armed | armFailed | putFull | recordDropped | pace | wake | leave
  | propagate => exact ⟨hsorted, hdrained⟩

theorem fifo_worker {s s' : State} {w : ℕ} {a : WorkerAction} (hf : Fifo s)
    (h : workerStep s w a = some s') : Fifo s' := by
  obtain ⟨hsorted, hdrained⟩ := hf
  obtain ⟨pc, q, st, pc', q', st', hpc, hq, -, hmove, rfl⟩ := workerStep_cases h
  have hcount := Threads.countP_set (b := pc') WorkerPc.isExited hpc
  rw [hq] at hsorted hdrained
  cases hmove with
  | getSlot k rest st =>
    refine ⟨(List.pairwise_cons.mp hsorted).2, ?_⟩
    have hsame : _ = s.workers.countP WorkerPc.isExited := hcount
    intro hpos i hmem
    exact hdrained (lt_of_lt_of_eq hpos hsame) i (List.mem_cons_of_mem _ hmem)
  -- A token was at the head, so only tokens are behind it.
  | getShutdown rest st =>
    have hp := List.pairwise_cons.mp hsorted
    exact ⟨hp.2, fun _ i hmem => hp.1 i hmem rfl⟩
  | choose | sent | sendFailed | record | logException =>
    have hsame : _ = s.workers.countP WorkerPc.isExited := hcount
    exact ⟨hsorted, fun hpos => hdrained (lt_of_lt_of_eq hpos hsame)⟩

theorem Run.fifo {g : LoadGenerator} {as : List Action} {s : State} (h : Run g as s) :
    Fifo s := by
  have hboth : Inv g s ∧ Fifo s := by
    refine h.invariant (I := fun s => Inv g s ∧ Fifo s)
      ⟨inv_init g, List.Pairwise.nil, by simp [State.init]⟩ ?_
    rintro s a s' ⟨hi, hf⟩ _ hn
    refine ⟨inv_next hi hn, ?_⟩
    cases a with
    | stop => cases hn; exact ⟨hf.sorted, hf.drained⟩
    | dispatcher a => exact fifo_dispatcher hi hf (dispatcherStep_cases hn)
    | worker w a => exact fifo_worker hf hn
  exact hboth.2

/-! ## One token for each worker

A worker that has taken a token is out and takes nothing any more. -/

theorem tokensTaken_snoc (w : ℕ) (as : List Action) (a : Action) :
    tokensTaken w (as ++ [a]) =
      tokensTaken w as + if a = .worker w .getShutdown then 1 else 0 := by
  simp [tokensTaken, List.count_append, List.count_singleton]

/-- A worker has taken one token if it has exited, and none otherwise. -/
def OneToken (as : List Action) (s : State) : Prop :=
  ∀ w, tokensTaken w as = if s.workers[w]? = some .exited then 1 else 0

theorem oneToken_worker {as : List Action} {s s' : State} {w : ℕ} {a : WorkerAction}
    (ht : OneToken as s) (h : workerStep s w a = some s') : OneToken (as ++ [.worker w a]) s' := by
  obtain ⟨pc, q, st, pc', q', st', hpc, -, -, hmove, rfl⟩ := workerStep_cases h
  intro v
  have hv := ht v
  rw [tokensTaken_snoc, hv]
  dsimp only
  rw [Threads.getElem?_set hpc]
  by_cases hvw : v = w
  · subst hvw
    rw [hpc]
    cases hmove <;> simp
  · have hne : Action.worker w a ≠ .worker v .getShutdown := by
      intro heq
      injection heq with hw _
      exact hvw hw.symm
    rw [if_neg hne, if_neg hvw, Nat.add_zero]

theorem Run.oneToken {g : LoadGenerator} {as : List Action} {s : State} (h : Run g as s) :
    OneToken as s := by
  refine h.invariant_trace (I := OneToken) (fun w => by simp [tokensTaken, State.init]) ?_
  intro as s a s' ht _ hn
  cases a with
  | worker w a => exact oneToken_worker ht hn
  | stop =>
    cases hn
    intro w
    rw [tokensTaken_snoc, ht w]
    simp
  | dispatcher a =>
    intro w
    have hne : Action.dispatcher a ≠ .worker w .getShutdown := by simp
    rw [tokensTaken_snoc, ht w, if_neg hne, Nat.add_zero]
    cases dispatcherStep_cases hn with
    | submit n hpc =>
      -- The new entry is a worker that has not run yet.
      dsimp only
      by_cases hlt : w < s.workers.length
      · rw [List.getElem?_append_left hlt]
      · rw [List.getElem?_append_right (not_lt.mp hlt), List.getElem?_eq_none (not_lt.mp hlt)]
        cases w - s.workers.length <;> simp
    | readNow now s' hpc hsel => rw [hsel.frame.2.1]
    | readStarted | checkStop | armed | armFailed | putNowait | putFull | recordDropped | pace
    | wake | putShutdown | leave | propagate => rfl

/-! ## The end of the run

When the pool is left normally all workers are out and the queue is empty, so the columns for what
is under way are zero, and the ledger is about what was sent and what was dropped. -/

/-- After `run()` has returned only `stop()` can still be called. -/
theorem stats_after_return {g : LoadGenerator} {s s' : State} {as : List Action} (hi : Inv g s)
    (hpc : s.pc = .returned) (h : Steps (next g) Anywhere s as s') : s'.stats = s.stats := by
  have hkeep : (Inv g s' ∧ s'.pc = .returned) ∧ s'.stats = s.stats := by
    refine h.invariant (I := fun t => (Inv g t ∧ t.pc = .returned) ∧ t.stats = s.stats)
      ⟨⟨hi, hpc⟩, rfl⟩ ?_
    rintro t a t' ⟨⟨hit, hpct⟩, hst⟩ _ hn
    have hall := hit.ended (by rw [hpct]; rfl)
    refine ⟨⟨inv_next hit hn, ?_⟩, ?_⟩
    all_goals
      cases a with
      | stop => cases hn; assumption
      | worker w a =>
        obtain ⟨pc, q, st, pc', q', st', hw, -, -, hmove, rfl⟩ := workerStep_cases hn
        -- A worker that has exited has no move.
        rw [hall pc (List.mem_of_getElem? hw)] at hmove
        cases hmove
      | dispatcher a =>
        cases dispatcherStep_cases hn with
        | checkStop h' => rcases h' with h' | h' <;> cases hpct.symm.trans h'
        | readStarted _ h' | submit _ h' | readNow _ _ h' | armed _ _ _ _ h'
        | armFailed _ _ _ _ _ h' | putNowait _ _ h' | putFull _ _ h' | recordDropped _ _ h'
        | pace _ _ _ _ h' | wake _ h' | putShutdown _ h' | leave h' | propagate _ h' =>
          cases hpct.symm.trans h'
  exact hkeep.2

theorem Run.slots_empty {g : LoadGenerator} {as : List Action} {s : State} (h : Run g as s)
    (hpc : s.pc = .returned) : s.slots = [] := by
  have hi := h.inv
  have hpool := hi.pool
  have htok := hi.tokens
  have hall := hi.ended (by rw [hpc]; rfl)
  have hex : s.workers.countP WorkerPc.isExited = s.workers.length :=
    List.countP_eq_length.mpr fun w hw => WorkerPc.isExited_iff.mpr (hall w hw)
  rw [hpc] at hpool htok
  simp only [Pc.submitsLeft, Pc.tokensLeft] at hpool htok
  have hpos := g.workers_pos
  have hshut := h.fifo.drained (by omega)
  have hlen : s.slots.countP Item.isShutdown = s.slots.length := List.countP_eq_length.mpr hshut
  exact List.length_eq_zero_iff.mp (by omega)

/-- Nothing is ahead of its attempt any more, so what was accepted was attempted. -/
theorem Run.attempted_perm {g : LoadGenerator} {as : List Action} {s : State} (h : Run g as s)
    (hpc : s.pc = .returned) : (attempted as).Perm (accepted as) := by
  have hall := h.inv.ended (by rw [hpc]; rfl)
  refine List.perm_iff_count.mpr fun k => ?_
  have hk := h.delivery.count k
  have hz : (s.workers.map (WorkerPc.ahead k)).sum = 0 := by
    refine List.sum_eq_zero ?_
    intro n hn
    obtain ⟨w, hw, rfl⟩ := List.mem_map.mp hn
    rw [hall w hw]
    rfl
  rw [h.slots_empty hpc, hz, List.count_nil] at hk
  omega

/-- **Conservation of request slots.** In every reachable state each slot that was opened is in
    exactly one column of the ledger, and the statistics agree with each other. When `run()` has
    returned, the queue is empty, every worker has consumed one token and exited, the slots
    attempted are the slots accepted, each exactly once, and the statistics are final. -/
theorem run_conserves_slots {g : LoadGenerator} {as : List Action} {s : State}
    (h : Run g as s) :
    (s.opened = s.stats.dropped + s.slots.countP Item.isSlot +
      s.workers.countP WorkerPc.isHeld + s.stats.sent + loggedFailures as) ∧
    s.stats.byClass.values.sum = s.stats.sent ∧ s.stats.latencies.length = s.stats.sent ∧
    (s.pc = .returned →
      s.slots = [] ∧
      (∀ w < g.workers, s.workers[w]? = some .exited ∧ tokensTaken w as = 1) ∧
      (accepted as).Nodup ∧ (attempted as).Perm (accepted as) ∧
      ∀ bs s', Steps (next g) Anywhere s bs s' → s'.stats = s.stats) := by
  have hi := h.inv
  refine ⟨h.ledger, hi.stats.byClass, hi.stats.latencies, ?_⟩
  intro hpc
  refine ⟨h.slots_empty hpc, ?_, h.delivery.nodup, h.attempted_perm hpc, ?_⟩
  · intro w hw
    have hpool := hi.pool
    rw [hpc] at hpool
    simp only [Pc.submitsLeft, Nat.add_zero] at hpool
    have hlt : w < s.workers.length := by omega
    have hex : s.workers[w]? = some .exited := by
      rw [List.getElem?_eq_getElem hlt, hi.ended (by rw [hpc]; rfl) _ (List.getElem_mem hlt)]
    refine ⟨hex, ?_⟩
    rw [h.oneToken w, if_pos hex]
  · intro bs s' hrest
    exact stats_after_return hi hpc hrest

/-! ### One slot, served while the run is being stopped -/

def steady : Phase where
  ref := 0
  name := "steady"
  durationSeconds := 1800
  rps := 20
  fault := none
  duration_pos := by decide
  rps_pos := by decide +kernel

def steadyGenerator : LoadGenerator where
  target := "http://svc"
  scenario :=
    { name := "normal", description := "", phases := [steady], expectedAlerts := []
      phases_ne := by simp
      ref_inj := by simp }
  workers := 1
  workers_pos := by decide

def stoppedRun : List Action :=
  [.dispatcher (.readStarted 5), .dispatcher .submit, .dispatcher .checkStop,
   .dispatcher (.readNow 5), .dispatcher (.putNowait 0), .worker 0 (.getSlot 0),
   .dispatcher (.pace 5), .stop, .worker 0 (.choose ⟨"GET", "/api/items", none⟩ 5),
   .dispatcher .wake, .dispatcher .checkStop, .dispatcher .putShutdown,
   .worker 0 (.send 0 (.status 503)), .worker 0 (.record 6), .worker 0 .getShutdown,
   .dispatcher .exitPool]

def stoppedState : State where
  pc := .returned
  stop := true
  started := 5
  nextSlot := 5 + 1 / 20
  current := some steady
  slots := []
  workers := [.exited]
  stats := Stats.init.record 503 1
  opened := 1

theorem run_conserves_slots_stopped :
    stoppedState.opened = 1 ∧ attempted stoppedRun = [0] ∧
    (stoppedState.pc = .returned →
      stoppedState.slots = [] ∧
      (∀ w < 1, stoppedState.workers[w]? = some .exited ∧ tokensTaken w stoppedRun = 1) ∧
      (accepted stoppedRun).Nodup ∧ (attempted stoppedRun).Perm (accepted stoppedRun) ∧
      ∀ bs s', Steps (next steadyGenerator) Anywhere stoppedState bs s' →
        s'.stats = stoppedState.stats) := by
  have hrun : Run steadyGenerator stoppedRun stoppedState := steps_of_exec (by decide +kernel)
  exact ⟨rfl, rfl, (run_conserves_slots hrun).2.2.2⟩

end Loadgen
end ObservabilityStack
