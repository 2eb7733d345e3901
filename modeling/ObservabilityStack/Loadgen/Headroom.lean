import ObservabilityStack.Lib.Bucket
import ObservabilityStack.Loadgen.Timed
import Mathlib.Data.Rat.Floor

/-!
# The default pool is large enough

With `max(4, int(2 * peak_rps))` workers, and no request that has its worker for a second, the
queue never fills. The proof is an account. `backlog` is what the pool has to do: one for every
queued slot, and for every request in progress what it has not used of its second. `credit` is
what the pacing may still open without waiting, the level of a token bucket that fills at the
peak rate. A slot is opened with one credit, so the sum grows only while time passes, at the
peak rate; and then either every worker is busy, and the backlog shrinks at the rate
`workers`, which is not less, or the queue is empty and the backlog is at most `workers`. So the
sum never exceeds `workers + 3`, and a queue of `4 * workers` is never full.

It takes no more of the pool than `peak_rps <= workers`.

The account is kept in exact rationals, and for every run that is `Prompt`: a request may take any
time below a second, and a worker that is idle takes a slot as soon as there is one. Nothing is
asked of the dispatcher, which may stall for as long as it likes and then finds at most two
credits.
-/

set_option autoImplicit false

namespace ObservabilityStack
namespace Loadgen

open Transition

/-! ## The size of the pool

`max(4, int(2 * peak))` is at least the peak, whatever `int` cuts off. -/

/-- The truncation of `int()` costs less than a worker, and from a peak of 4 on there is a
    spare one for every request per second. -/
theorem peakRps_le_workers (target : String) (scenario : Scenario) :
    scenario.peakRps ≤ (LoadGenerator.new target scenario none).workers := by
  have hpos := scenario.peakRps_pos
  have hfloor : scenario.peakRps * 2 < ⌊scenario.peakRps * 2⌋ + 1 := Int.lt_floor_add_one _
  have hnat : (⌊scenario.peakRps * 2⌋ : ℚ) ≤ (⌊scenario.peakRps * 2⌋.toNat : ℚ) := by
    exact_mod_cast Int.self_le_toNat _
  show scenario.peakRps ≤ ((max 4 (scenario.peakRps * 2).floor.toNat : ℕ) : ℚ)
  push_cast
  rcases le_total scenario.peakRps 4 with hsmall | hlarge
  · exact hsmall.trans (le_max_left _ _)
  · refine le_trans ?_ (le_max_right _ _)
    change scenario.peakRps ≤ (⌊scenario.peakRps * 2⌋.toNat : ℚ)
    linarith

/-! ## The account

Both sides of the account are functions of the timed state, and `Headroom` bounds their sum. -/

/-- What the request of the worker `w` has not used of its second. -/
def Timed.owed (c : Timed) (w : ℕ) : ℚ :=
  if c.state.workers[w]?.any WorkerPc.isHeld then 1 - (c.time - c.taken w) else 0

def Timed.backlog (g : LoadGenerator) (c : Timed) : ℚ :=
  c.state.slots.countP Item.isSlot + Bucket.total g.workers c.owed

/-- The slots the pacing may open without waiting. Between the reading of the clock and the
    slot, the one about to be opened is among them. -/
def State.credit (s : State) (rate time : ℚ) : ℚ :=
  match s.pc with
  | .entering | .submitting _ => 2
  | .looping | .selecting | .sleeping _ => Bucket.level rate time s.nextSlot
  | .arming phase _ now | .opening phase now | .dropping phase now =>
      1 + Bucket.level rate time (max (s.nextSlot + 1 / phase.rps) now)
  | .pacing phase now => Bucket.level rate time (max (s.nextSlot + 1 / phase.rps) now)
  | _ => 0

structure Headroom (g : LoadGenerator) (c : Timed) : Prop where
  /-- What is owed and what may still be opened, together. -/
  account : c.backlog g + c.state.credit g.scenario.peakRps c.time ≤ g.workers + 3
  /-- Nobody holds a request for a second. -/
  busy : ∀ w, c.state.workers[w]?.any WorkerPc.isHeld →
    c.taken w ≤ c.time ∧ c.time < c.taken w + 1
  paced : c.state.Paced c.time c.due
  /-- Nothing was dropped, and nothing is about to be. -/
  dropped : c.state.stats.dropped = 0 ∧ ∀ phase now, c.state.pc ≠ .dropping phase now

/-- Time passes only while no idle worker has a slot to take, and no request has its worker for
    a second. -/
def Timed.Prompt (c : Timed) : TimedAction → Prop
  | .elapse seconds =>
      (.waiting ∈ c.state.workers → ∀ i ∈ c.state.slots, i.isSlot = false) ∧
      ∀ w < c.state.workers.length, c.state.workers[w]?.any WorkerPc.isHeld →
        c.time + seconds < c.taken w + 1
  | .act _ => True

theorem State.credit_nonneg (s : State) (rate time : ℚ) : 0 ≤ s.credit rate time := by
  have hlevel : ∀ n, 0 ≤ Bucket.level rate time n := fun n => Bucket.level_nonneg
  unfold credit
  cases s.pc with
  | entering | submitting _ => norm_num
  | looping | selecting | sleeping _ | pacing _ _ => exact hlevel _
  | arming _ _ _ | opening _ _ | dropping _ _ => exact add_nonneg zero_le_one (hlevel _)
  | stopping _ | unwinding _ | returned | raised _ => exact le_refl _

theorem State.credit_le (s : State) (rate time : ℚ) : s.credit rate time ≤ 3 := by
  have hlevel : ∀ n, Bucket.level rate time n ≤ 2 := fun n => Bucket.level_le_two
  unfold credit
  cases s.pc with
  | entering | submitting _ => norm_num
  | looping | selecting | sleeping _ | pacing _ _ => exact (hlevel _).trans (by norm_num)
  | arming _ _ _ | opening _ _ | dropping _ _ =>
    dsimp only
    linarith [hlevel (max (s.nextSlot + 1 / ‹Phase›.rps) ‹ℚ›)]
  | stopping _ | unwinding _ | returned | raised _ => norm_num

/-- The loop has been entered and not left. -/
def Pc.inLoop (pc : Pc) : Bool :=
  match pc with
  | .looping | .selecting | .arming _ _ _ | .opening _ _ | .dropping _ _ | .pacing _ _
  | .sleeping _ => true
  | _ => false

theorem Pc.counts_of_inLoop {pc : Pc} (h : pc.inLoop = true) (workers : ℕ) :
    pc.submitsLeft workers = 0 ∧ pc.tokensLeft workers = workers := by
  cases pc with
  | looping | selecting | arming | opening | dropping | pacing | sleeping => exact ⟨rfl, rfl⟩
  | entering | submitting | stopping | unwinding | returned | raised => cases h

theorem State.credit_elapse (s : State) {rate time dt : ℚ} (hrate : 0 ≤ rate) (hdt : 0 ≤ dt) :
    s.credit rate (time + dt) ≤
      s.credit rate time + if s.pc.inLoop then rate * dt else 0 := by
  have hlevel : ∀ n, Bucket.level rate (time + dt) n ≤ Bucket.level rate time n + rate * dt :=
    fun n => Bucket.level_elapse hrate hdt
  unfold credit Pc.inLoop
  cases s.pc with
  | entering | submitting _ | stopping _ | unwinding _ | returned | raised _ => simp
  | looping | selecting | sleeping _ | pacing _ _ => exact hlevel _
  | arming _ _ _ | opening _ _ | dropping _ _ =>
    dsimp only
    rw [if_pos rfl, add_assoc]
    exact add_le_add_right (hlevel _) 1

/-- **A step of the dispatcher is paid for.** Only the reading of the clock spends: it takes the
    credit that `put_nowait` turns into a queued slot. -/
theorem dispatcher_pays {g : LoadGenerator} {s s' : State} {a : DispatcherAction} {time due : ℚ}
    (hpaced : s.Paced time due) (hread : ∀ now ∈ (Action.dispatcher a).reading, now = time)
    (h : DispatcherStep g s a s') :
    (s'.slots.countP Item.isSlot : ℚ) + s'.credit g.scenario.peakRps time ≤
      s.slots.countP Item.isSlot + s.credit g.scenario.peakRps time := by
  have hnonneg := s.credit_nonneg g.scenario.peakRps time
  cases h with
  | readStarted now hpc => simp [State.credit, hpc]
  | submit n hpc => simp [State.credit, hpc]
  | checkStop hpc =>
    cases s.stop with
    | true => simpa [State.credit] using hnonneg
    | false =>
      rcases hpc with hpc | hpc
      · simp [State.credit, hpc]
      · simp [State.credit, hpc, Bucket.level_le_two]
  | readNow now s' hpc hsel =>
    have hnow : now = time := hread now rfl
    subst hnow
    have hdue : s.nextSlot ≤ now := by simpa [State.Paced, hpc] using hpaced
    -- The loop reads the clock when its slot is due, so there is a credit to take.
    have hspend : ∀ phase, g.scenario.phaseAt (now - s.started) = .ok (some phase) →
        1 + Bucket.level g.scenario.peakRps now (max (s.nextSlot + 1 / phase.rps) now) ≤
          Bucket.level g.scenario.peakRps now s.nextSlot := by
      intro phase hat
      exact Bucket.level_spend phase.rps_pos
        (Scenario.rps_le_peakRps (Scenario.mem_of_phaseAt hat)) hdue
    cases hsel with
    | backwards exc hat hlt => simpa [State.credit] using hnonneg
    | ended hat => simpa [State.credit] using hnonneg
    | same phase hat hcur => simpa [State.credit, hpc] using hspend phase hat
    | faulted phase fault hat hcur hfault => simpa [State.credit, hpc] using hspend phase hat
    | quiet phase hat hcur hfault => simpa [State.credit, hpc] using hspend phase hat
  | armed phase fault now result hpc hok => simp [State.credit, hpc]
  | armFailed phase fault now result exc hpc herr => simpa [State.credit] using hnonneg
  | putNowait phase now hpc hroom =>
    simp only [State.credit, hpc, List.countP_append, List.countP_singleton, Item.isSlot, if_true]
    push_cast
    linarith
  | putFull phase now hpc hfull => simp [State.credit, hpc]
  | recordDropped phase now hpc => simp [State.credit, hpc]
  | pace phase now clock nextSlot hpc hnext =>
    subst hnext
    split
    · simp [State.credit, hpc]
    · simp [State.credit, hpc]
  | wake seconds hpc => simp [State.credit, hpc]
  | putShutdown n hpc hroom => simp [State.credit, hpc, Item.isSlot]
  | leave hpc hall => simp [State.credit, hpc]
  | propagate exc hpc hall => simp [State.credit, hpc]

/-! ## The steps keep the account

Time passing is the step with an argument, and the one where the two cases of the pool appear.
Every other step moves a unit from one side to the other, or takes one away. -/

theorem DispatcherStep.isHeld {g : LoadGenerator} {s s' : State} {a : DispatcherAction}
    (h : DispatcherStep g s a s') (w : ℕ) :
    s'.workers[w]?.any WorkerPc.isHeld = s.workers[w]?.any WorkerPc.isHeld := by
  cases h with
  | submit n hpc =>
    -- The new worker waits.
    rw [List.getElem?_append]
    split
    · rfl
    · rename_i hge
      rw [List.getElem?_eq_none (not_lt.mp hge)]
      cases (w - s.workers.length) with
      | zero => rfl
      | succ n => rfl
  | readNow now s' hpc hsel => rw [hsel.frame.2.1]
  | _ => rfl

theorem DispatcherStep.dropped {g : LoadGenerator} {s s' : State} {a : DispatcherAction}
    (h : DispatcherStep g s a s')
    (hroom : ∀ phase now, s.pc = .opening phase now → s.slots.length < g.maxsize)
    (hzero : s.stats.dropped = 0 ∧ ∀ phase now, s.pc ≠ .dropping phase now) :
    s'.stats.dropped = 0 ∧ ∀ phase now, s'.pc ≠ .dropping phase now := by
  obtain ⟨hzero, hnot⟩ := hzero
  cases h with
  | putFull phase now hpc hfull => exact absurd (hroom phase now hpc) (not_lt.mpr hfull)
  | recordDropped phase now hpc => exact absurd hpc (hnot phase now)
  | readNow now s' hpc hsel => cases hsel <;> exact ⟨hzero, by simp⟩
  | checkStop hpc =>
    refine ⟨hzero, ?_⟩
    cases s.stop <;> simp
  | pace phase now clock nextSlot hpc hnext =>
    refine ⟨hzero, ?_⟩
    intro phase' now'
    dsimp only
    split <;> simp
  | _ => exact ⟨hzero, by simp⟩

/-- What a worker does is free: taking a slot moves it from the queue to the worker, and the
    end of a request gives up what is left of its second. -/
theorem worker_pays {a : WorkerAction} {pc pc' : WorkerPc} {q q' : List Item} {st st' : Stats}
    {x x' : ℚ} (h : WorkerMove a pc q st pc' q' st') (hx : pc.isHeld = true → 0 ≤ x)
    (htake : ∀ k, a = .getSlot k → x' = 1) (hkeep : (∀ k, a ≠ .getSlot k) → x' = x) :
    (q'.countP Item.isSlot : ℚ) + (if pc'.isHeld then x' else 0) ≤
      q.countP Item.isSlot + (if pc.isHeld then x else 0) := by
  cases h with
  | getSlot k rest st =>
    rw [htake k rfl]
    simp [WorkerPc.isHeld, Item.isSlot, List.countP_cons]
  | getShutdown rest st => simp [WorkerPc.isHeld, Item.isSlot]
  | choose | sent | sendFailed =>
    rw [hkeep (by simp)]
    simp [WorkerPc.isHeld]
  | record | logException => simpa [WorkerPc.isHeld] using hx rfl

theorem headroom_dispatcher {g : LoadGenerator} {c : Timed} {s : State} {a : DispatcherAction}
    (hc : Headroom g c)
    (hroom : ∀ phase now, c.state.pc = .opening phase now → c.state.slots.length < g.maxsize)
    (hread : ∀ now ∈ (Action.dispatcher a).reading, now = c.time)
    (hwake : Action.dispatcher a = .dispatcher .wake → c.due ≤ c.time)
    (h : DispatcherStep g c.state a s) : Headroom g (c.after s (.dispatcher a)) := by
  have htaken : (c.after s (.dispatcher a)).taken = c.taken := by cases a <;> rfl
  have hheld := h.isHeld
  refine ⟨?_, ?_, ?_, ?_⟩
  · have howed : (c.after s (.dispatcher a)).owed = c.owed := by
      funext w
      simp only [Timed.owed, Timed.after_state, Timed.after_time, htaken, hheld]
    have hpays := dispatcher_pays hc.paced hread h
    have haccount := hc.account
    unfold Timed.backlog at haccount ⊢
    rw [howed, Timed.after_state, Timed.after_time]
    linarith
  · intro w hw
    rw [Timed.after_state, hheld] at hw
    rw [Timed.after_time, htaken]
    exact hc.busy w hw
  · exact paced_dispatcher hc.paced hread hwake h
  · rw [Timed.after_state]
    exact h.dropped hroom hc.dropped

/-- When the slot in a worker's hands was taken. -/
theorem after_worker (c : Timed) (s : State) (w : ℕ) (a : WorkerAction) :
    (∀ j, j ≠ w → (c.after s (.worker w a)).taken j = c.taken j) ∧
    (∀ k, a = .getSlot k → (c.after s (.worker w a)).taken w = c.time) ∧
    ((∀ k, a ≠ .getSlot k) → (c.after s (.worker w a)).taken w = c.taken w) := by
  cases a with
  | getSlot k => simp +contextual [Timed.after, Function.update_of_ne]
  | _ => simp [Timed.after]

/-- A request that is in progress was taken before, unless it is taken now. -/
theorem WorkerMove.isHeld {a : WorkerAction} {pc pc' : WorkerPc} {q q' : List Item}
    {st st' : Stats} (h : WorkerMove a pc q st pc' q' st') (hheld : pc'.isHeld = true) :
    (∃ k, a = .getSlot k) ∨ (∀ k, a ≠ .getSlot k) ∧ pc.isHeld = true := by
  cases h with
  | getSlot k rest st => exact Or.inl ⟨k, rfl⟩
  | choose | sent | sendFailed => exact Or.inr ⟨by simp, rfl⟩
  | getShutdown | record | logException => cases hheld

theorem WorkerMove.dropped {a : WorkerAction} {pc pc' : WorkerPc} {q q' : List Item}
    {st st' : Stats} (h : WorkerMove a pc q st pc' q' st') : st'.dropped = st.dropped := by
  cases h <;> rfl

/-- A step of the worker `w`, which was at `pc` and is at `pc'`, on the clock. -/
structure MovesTo (c c' : Timed) (w : ℕ) (a : WorkerAction) (pc pc' : WorkerPc) : Prop where
  time : c'.time = c.time
  was : c.state.workers[w]? = some pc
  workers : ∀ j, c'.state.workers[j]? = if j = w then some pc' else c.state.workers[j]?
  others : ∀ j, j ≠ w → c'.taken j = c.taken j
  took : ∀ k, a = .getSlot k → c'.taken w = c.time
  kept : (∀ k, a ≠ .getSlot k) → c'.taken w = c.taken w

theorem movesTo_after {c : Timed} {s : State} {w : ℕ} {a : WorkerAction} {pc pc' : WorkerPc}
    (hpc : c.state.workers[w]? = some pc) (hset : s.workers = c.state.workers.set w pc') :
    MovesTo c (c.after s (.worker w a)) w a pc pc' := by
  obtain ⟨hother, htook, hkept⟩ := after_worker c s w a
  refine ⟨c.after_time s _, hpc, ?_, hother, htook, hkept⟩
  intro j
  rw [Timed.after_state, hset]
  exact Threads.getElem?_set hpc

section movesTo

variable {c c' : Timed} {w : ℕ} {a : WorkerAction} {pc pc' : WorkerPc} {q q' : List Item}
  {st st' : Stats}

/-- Only the term of `w` changes, and `worker_pays` says by how much. -/
theorem MovesTo.pays (hm : MovesTo c c' w a pc pc') (hmove : WorkerMove a pc q st pc' q' st')
    (hbusy : pc.isHeld = true → c.time < c.taken w + 1) {n : ℕ} (hw : w < n) :
    (q'.countP Item.isSlot : ℚ) + Bucket.total n c'.owed ≤
      q.countP Item.isSlot + Bucket.total n c.owed := by
  have hnew : c'.owed w = if pc'.isHeld then 1 - (c.time - c'.taken w) else 0 := by
    unfold Timed.owed
    rw [hm.workers, if_pos rfl, hm.time]
    rfl
  have hold : c.owed w = if pc.isHeld then 1 - (c.time - c.taken w) else 0 := by
    unfold Timed.owed
    rw [hm.was]
    rfl
  have htotal : Bucket.total n c'.owed + c.owed w = Bucket.total n c.owed + c'.owed w := by
    apply Bucket.total_replace hw
    intro j hj
    unfold Timed.owed
    rw [hm.workers, if_neg hj, hm.time, hm.others j hj]
  have hpays : (q'.countP Item.isSlot : ℚ) + c'.owed w ≤ q.countP Item.isSlot + c.owed w := by
    rw [hnew, hold]
    apply worker_pays hmove
    · intro hheld
      linarith [hbusy hheld]
    · intro k hk
      rw [hm.took k hk]
      ring
    · intro hk
      rw [hm.kept hk]
  linarith

/-- No request that is in progress was taken a second ago. -/
theorem MovesTo.busy (hm : MovesTo c c' w a pc pc') (hmove : WorkerMove a pc q st pc' q' st')
    (hbusy : ∀ j, c.state.workers[j]?.any WorkerPc.isHeld →
      c.taken j ≤ c.time ∧ c.time < c.taken j + 1) (j : ℕ)
    (hj : c'.state.workers[j]?.any WorkerPc.isHeld) :
    c'.taken j ≤ c'.time ∧ c'.time < c'.taken j + 1 := by
  rw [hm.workers] at hj
  by_cases hjw : j = w
  · subst hjw
    rw [if_pos rfl] at hj
    rcases hmove.isHeld hj with ⟨k, hk⟩ | ⟨hk, hheld⟩
    · rw [hm.took k hk, hm.time]
      exact ⟨le_refl _, lt_add_one _⟩
    · rw [hm.kept hk, hm.time]
      exact hbusy j (by rw [hm.was]; exact hheld)
  · rw [if_neg hjw] at hj
    rw [hm.others j hjw, hm.time]
    exact hbusy j hj

end movesTo

theorem headroom_worker {g : LoadGenerator} {c : Timed} {s : State} {w : ℕ} {a : WorkerAction}
    (hc : Headroom g c) (hlen : c.state.workers.length ≤ g.workers)
    (h : workerStep c.state w a = some s) : Headroom g (c.after s (.worker w a)) := by
  obtain ⟨pc, q, st, pc', q', st', hpc, hq, hst, hmove, hs⟩ := workerStep_cases h
  have hw : w < g.workers := (List.getElem?_eq_some_iff.mp hpc).1.trans_le hlen
  have hm : MovesTo c (c.after s (.worker w a)) w a pc pc' := movesTo_after hpc (by rw [hs])
  refine ⟨?_, hm.busy hmove hc.busy, ?_, ?_⟩
  · have hheld : pc.isHeld = true → c.time < c.taken w + 1 := by
      intro hheld
      exact (hc.busy w (by rw [hpc]; exact hheld)).2
    have hpays := hm.pays hmove hheld hw
    have haccount := hc.account
    have hcredit : s.credit g.scenario.peakRps c.time =
        c.state.credit g.scenario.peakRps c.time := by
      rw [hs]
      rfl
    have hslots : s.slots = q' := by rw [hs]
    unfold Timed.backlog at haccount ⊢
    rw [hq] at haccount
    rw [Timed.after_state, Timed.after_time, hcredit, hslots]
    linarith
  · rw [Timed.after_time, Timed.after_worker_due, Timed.after_state, hs]
    exact hc.paced
  · rw [Timed.after_state, hs]
    refine ⟨?_, hc.dropped.2⟩
    rw [hmove.dropped, ← hst]
    exact hc.dropped.1

theorem Headroom.owed_le {g : LoadGenerator} {c : Timed} (hc : Headroom g c) (w : ℕ) :
    0 ≤ c.owed w ∧ c.owed w ≤ 1 := by
  unfold Timed.owed
  split
  · obtain ⟨hle, hlt⟩ := hc.busy w ‹_›
    constructor
    · linarith
    · linarith
  · exact ⟨le_refl 0, zero_le_one⟩

/-- In the loop the pool is complete and no worker has gone: one that does not wait is busy. -/
theorem all_busy {g : LoadGenerator} {s : State} (hi : Inv g s) (hloop : s.pc.inLoop = true)
    (hidle : .waiting ∉ s.workers) : ∀ w < g.workers, s.workers[w]?.any WorkerPc.isHeld := by
  obtain ⟨hsub, htok⟩ := Pc.counts_of_inLoop hloop g.workers
  have hpool := hi.pool
  have htokens := hi.tokens
  rw [hsub] at hpool
  rw [htok] at htokens
  have hgone : s.workers.countP WorkerPc.isExited = 0 := by omega
  intro w hw
  have hlt : w < s.workers.length := by omega
  have hmem : s.workers[w] ∈ s.workers := List.getElem_mem hlt
  have hstays := List.countP_eq_zero.mp hgone _ hmem
  rw [List.getElem?_eq_getElem hlt]
  cases hpc : s.workers[w] with
  | waiting => exact absurd (hpc ▸ hmem) hidle
  | exited => simp [hpc, WorkerPc.isExited] at hstays
  | holding | sending | answered | failing => rfl

/-- A busy worker works off the time that passes. -/
theorem owed_worked (c : Timed) (dt : ℚ) {w : ℕ}
    (hw : c.state.workers[w]?.any WorkerPc.isHeld = true) :
    Timed.owed { c with time := c.time + dt } w + dt = c.owed w := by
  unfold Timed.owed
  rw [if_pos hw, if_pos hw]
  ring

theorem owed_elapse_le (c : Timed) (w : ℕ) {dt : ℚ} (hdt : 0 ≤ dt) :
    Timed.owed { c with time := c.time + dt } w ≤ c.owed w := by
  by_cases hw : c.state.workers[w]?.any WorkerPc.isHeld
  · linarith [owed_worked c dt hw]
  · unfold Timed.owed
    rw [if_neg hw, if_neg hw]

theorem headroom_elapse {g : LoadGenerator} {c : Timed} {dt : ℚ} (hc : Headroom g c)
    (hi : Inv g c.state) (hrate : g.scenario.peakRps ≤ g.workers)
    (hprompt : c.Prompt (.elapse dt)) (hdt : 0 < dt) :
    Headroom g { c with time := c.time + dt } := by
  obtain ⟨hidle, hshort⟩ := hprompt
  have hbusy : ∀ w, c.state.workers[w]?.any WorkerPc.isHeld →
      c.taken w ≤ c.time + dt ∧ c.time + dt < c.taken w + 1 := by
    intro w hw
    have hlt : w < c.state.workers.length := by
      by_contra hge
      rw [List.getElem?_eq_none (not_lt.mp hge)] at hw
      cases hw
    exact ⟨by linarith [(hc.busy w hw).1], hshort w hlt hw⟩
  refine ⟨?_, hbusy, ?_, hc.dropped⟩
  · have haccount := hc.account
    have hcredit : c.state.credit g.scenario.peakRps (c.time + dt) ≤
        c.state.credit g.scenario.peakRps c.time +
          if c.state.pc.inLoop then g.scenario.peakRps * dt else 0 :=
      c.state.credit_elapse g.scenario.peakRps_pos.le hdt.le
    unfold Timed.backlog at haccount ⊢
    by_cases hwait : .waiting ∈ c.state.workers
    · -- The queue is empty.
      have hempty : c.state.slots.countP Item.isSlot = 0 := by
        rw [List.countP_eq_zero]
        intro i hi hslot
        rw [hidle hwait i hi] at hslot
        cases hslot
      have htotal := Bucket.total_le (n := g.workers)
        fun w _ => (owed_elapse_le c w hdt.le).trans (hc.owed_le w).2
      have hcap := c.state.credit_le g.scenario.peakRps (c.time + dt)
      dsimp only
      rw [hempty]
      push_cast
      linarith
    · cases hloop : c.state.pc.inLoop with
      | true =>
        -- Every worker is busy, and together they work off what the pacing gains.
        have hworked := Bucket.total_worked fun w hw =>
          owed_worked c dt (all_busy hi hloop hwait w hw)
        have hfill := mul_le_mul_of_nonneg_right hrate hdt.le
        rw [if_pos hloop] at hcredit
        linarith
      | false =>
        have htotal := Bucket.total_mono (n := g.workers) fun w _ => owed_elapse_le c w hdt.le
        rw [if_neg (by simp [hloop])] at hcredit
        linarith
  · exact paced_elapse hc.paced hdt.le

/-- While a slot is about to be put, there is room for it. -/
theorem Headroom.room {g : LoadGenerator} {c : Timed} (hc : Headroom g c) (hi : Inv g c.state)
    {phase : Phase} {now : ℚ} (hpc : c.state.pc = .opening phase now) :
    c.state.slots.length < g.maxsize := by
  have haccount := hc.account
  have htotal : 0 ≤ Bucket.total g.workers c.owed :=
    Bucket.total_nonneg fun w _ => (hc.owed_le w).1
  have hcredit : 1 ≤ c.state.credit g.scenario.peakRps c.time := by
    simp only [State.credit, hpc]
    exact le_add_of_nonneg_right Bucket.level_nonneg
  have htokens := hi.tokens
  rw [hpc] at htokens
  simp only [Pc.tokensLeft] at htokens
  have hslots : c.state.slots.length = c.state.slots.countP Item.isSlot := by
    have hsplit := List.length_eq_countP_add_countP Item.isSlot (l := c.state.slots)
    have hshut : c.state.slots.countP (fun i => decide (¬ i.isSlot = true)) =
        c.state.slots.countP Item.isShutdown := by
      apply List.countP_congr
      intro i _
      cases i <;> simp [Item.isSlot, Item.isShutdown]
    omega
  have hle : c.state.slots.countP Item.isSlot ≤ g.workers + 2 := by
    unfold Timed.backlog at haccount
    have hcast : (c.state.slots.countP Item.isSlot : ℚ) ≤ ((g.workers + 2 : ℕ) : ℚ) := by
      push_cast
      linarith
    exact_mod_cast hcast
  have hpos := g.workers_pos
  unfold LoadGenerator.maxsize queueSlack
  omega

theorem headroom_init (g : LoadGenerator) (t : ℚ) : Headroom g (.init t) := by
  refine ⟨?_, ?_, trivial, rfl, by simp [Timed.init, State.init]⟩
  · have hzero : Bucket.total g.workers (Timed.init t).owed = 0 :=
      Finset.sum_eq_zero fun w _ => rfl
    unfold Timed.backlog
    rw [hzero]
    simp only [Timed.init, State.init, State.credit, List.countP_nil]
    push_cast
    linarith [Nat.cast_nonneg (α := ℚ) g.workers]
  · intro w hw
    cases hw

/-- **The queue of a pool that is at least the peak rate never fills.** -/
theorem Headroom.of_run {g : LoadGenerator} {t : ℚ} {as : List TimedAction} {c : Timed}
    (hrate : g.scenario.peakRps ≤ g.workers)
    (h : Steps (timedNext g) Timed.Prompt (.init t) as c) : Headroom g c := by
  induction h with
  | refl => exact headroom_init g t
  | snoc hrun hok hn ih =>
    have hi := Timed.inv hrun
    cases timedNext_cases hn with
    | elapse seconds hpos => exact headroom_elapse ih hi hrate hok hpos
    | act a s hread hwake hnext =>
      cases a with
      | stop =>
        cases hnext
        exact ⟨ih.account, ih.busy, ih.paced, ih.dropped⟩
      | dispatcher a =>
        exact headroom_dispatcher ih (fun phase now hpc => ih.room hi hpc) hread hwake
          (dispatcherStep_cases hnext)
      | worker w a => exact headroom_worker ih (hi.pool ▸ Nat.le_add_right _ _) hnext

/-- **The default pool never drops a slot.** -/
theorem default_pool_never_drops (target : String) (scenario : Scenario) (t : ℚ)
    (as : List TimedAction) (c : Timed)
    (h : Steps (timedNext (.new target scenario none)) Timed.Prompt (.init t) as c) :
    .act (.dispatcher .putFull) ∉ as ∧ c.state.stats.dropped = 0 := by
  have hrate := peakRps_le_workers target scenario
  refine ⟨?_, (Headroom.of_run hrate h).dropped.1⟩
  induction h with
  | refl => exact List.not_mem_nil
  | snoc hrun hok hn ih =>
    intro hmem
    rcases List.mem_append.mp hmem with hmem | hmem
    · exact ih hmem
    · -- After `putFull` the dispatcher is about to count a drop.
      obtain rfl := List.mem_singleton.mp hmem
      have hnot := (Headroom.of_run hrate (hrun.snoc hok hn)).dropped.2
      cases timedNext_cases hn with
      | act a s hread hwake hnext =>
        cases dispatcherStep_cases (a := .putFull) hnext with
        | putFull phase now hpc hfull => exact hnot phase now rfl

/-- Two requests per second for a second, so four workers. -/
def pair : Phase where
  ref := 0
  name := "pair"
  durationSeconds := 1
  rps := 2
  fault := none
  duration_pos := Int.one_pos
  rps_pos := by decide +kernel

def pairScenario : Scenario where
  name := "unit"
  description := ""
  phases := [pair]
  expectedAlerts := []
  phases_ne := by simp
  ref_inj := by simp

/-- The second slot is opened while the first request is in progress, for 9/10 of a second. -/
def pairRun : List TimedAction :=
  (List.map (fun a => .act (.dispatcher a))
    [.readStarted 7, .submit, .submit, .submit, .submit, .checkStop, .readNow 7, .putNowait 0]) ++
  [.act (.worker 2 (.getSlot 0)), .act (.worker 2 (.choose ⟨"GET", "/api/items", none⟩ 7)),
   .act (.dispatcher (.pace 7)), .elapse (1 / 2), .act (.dispatcher .wake),
   .act (.dispatcher .checkStop), .act (.dispatcher (.readNow (15 / 2))),
   .act (.dispatcher (.putNowait 1)), .act (.worker 0 (.getSlot 1)),
   .act (.dispatcher (.pace (15 / 2))), .elapse (2 / 5),
   .act (.worker 2 (.send 0 (.status 200))), .act (.worker 2 (.record (79 / 10))),
   .elapse (1 / 10), .act (.dispatcher .wake), .act (.dispatcher .checkStop),
   .act (.dispatcher (.readNow 8))]

instance (c : Timed) (a : TimedAction) : Decidable (c.Prompt a) :=
  match a with
  | .elapse _ => inferInstanceAs (Decidable (_ ∧ _))
  | .act _ => inferInstanceAs (Decidable True)

theorem default_pool_never_drops_pair :
    ∃ c, Steps (timedNext (.new "http://svc" pairScenario none)) Timed.Prompt (.init 7) pairRun c ∧
      .act (.dispatcher .putFull) ∉ pairRun ∧ c.state.stats.dropped = 0 := by
  have hruns : (execIf (timedNext (.new "http://svc" pairScenario none)) Timed.Prompt
      (.init 7) pairRun).isSome := by decide +kernel
  obtain ⟨c, hc⟩ := Option.isSome_iff_exists.mp hruns
  have hrun := steps_of_execIf hc
  exact ⟨c, hrun, default_pool_never_drops "http://svc" pairScenario 7 pairRun c hrun⟩

end Loadgen
end ObservabilityStack
