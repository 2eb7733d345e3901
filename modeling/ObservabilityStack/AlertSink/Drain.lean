import ObservabilityStack.AlertSink.Intake

/-!
# The handlers come to an end

No handler waits for another one but at the lock, and the thread that holds it does not wait. So the
threads cannot block each other, and each has only so many steps to go. How many is a number one can
write down (`Sink.left`), and every step takes one off it: there is no schedule in which the threads
run on, and no need to assume one that is fair.

What a handler does wait for is its client. Before it comes to the lock it reads the body, and a
body that is never sent holds up the thread that reads it for ever. It holds up no other thread,
since it has not got the lock. So `sink_drains` counts the steps of the handlers whose bodies are
there (`ThreadingServer.left`), and says of the others that they are still waiting in the end, and
of nothing but them that it waits.

Termination, the absence of deadlock, and what has been achieved in the end are three facts, and
they come from one count. It goes down with every step, so no run is longer; while it is positive
some step is possible, so no run stops before; and where it is zero every handler is done.
-/

set_option autoImplicit false

namespace ObservabilityStack
namespace AlertSink

open Python (Json latin1)
open Transition

/-- The steps a handler takes from its start. -/
def Plan.size : Plan → ℕ
  | .ask _ => 3
  | .add alerts => 2 * alerts.length + 3
  | .answer records _ => records.length + 2
  | .raise _ => 1

/-- The alerts a plan adds to the store. -/
def Plan.batch : Plan → List ReceivedAlert
  | .add alerts => alerts
  | .ask _ | .answer _ _ | .raise _ => []

/-- The steps that are left to it. -/
def remaining (p : Plan) : Pc → ℕ
  | .start => p.size
  | .adding alerts rest => rest.length + alerts.length + 2
  | .copying _ => 2
  | .logging rest _ => rest.length + 1
  | .done _ => 0

theorem remaining_eq_zero {p : Plan} {pc : Pc} (h : remaining p pc = 0) :
    ∃ outcome, pc = .done outcome := by
  cases pc with
  | start => cases p <;> exact absurd h (Nat.succ_ne_zero _)
  | adding | copying | logging => exact absurd h (Nat.succ_ne_zero _)
  | done outcome => exact ⟨outcome, rfl⟩

namespace Sink

section Step

variable [Unicode] {loads : List UInt8 → Except LoadsError Json} {s s' : Sink}

/-- The steps that are left to all of them. -/
def left (loads : List UInt8 → Except LoadsError Json) (s : Sink) : ℕ :=
  (s.threads.map fun e => remaining (plan loads e.1) e.2).sum

theorem exists_of_monitor {i : ℕ} {c : Monitor.Critical AlertStore (Option Response)}
    {p : Monitor.Phase AlertStore (Option Response)}
    (h : (monitor loads s).threads[i]? = some (c, p)) :
    ∃ job pc, s.threads[i]? = some (job, pc) ∧ phase (plan loads job) pc = p := by
  have hmap : (s.threads.map _)[i]? = some (c, p) := h
  rw [List.getElem?_map] at hmap
  obtain ⟨⟨job, pc⟩, hi, heq⟩ := Option.map_eq_some_iff.mp hmap
  exact ⟨job, pc, hi, (Prod.mk.inj heq).2⟩

/-- The thread that holds the lock is neither waiting for it nor done. -/
theorem Run.holder {store : AlertStore} {as : List Action} (h : Run loads store as s) {i : ℕ}
    (hlock : s.lock = some i) : ∃ job pc, s.threads[i]? = some (job, pc) ∧ pc ≠ .start ∧
      ∀ outcome, pc ≠ .done outcome := by
  obtain ⟨-, c, -, rest, -, hat, -⟩ := h.linear.held i hlock
  obtain ⟨job, pc, hi, hphase⟩ := exists_of_monitor hat
  refine ⟨job, pc, hi, ?_, ?_⟩
  · rintro rfl
    rw [phase_start] at hphase
    cases hphase
  · rintro outcome rfl
    exact phase_done _ outcome rest hphase

/-- When nothing is left to the handlers, all are done. -/
theorem done_of_left {i : ℕ} {job : Job} {pc : Pc} (hzero : left loads s = 0)
    (hi : s.threads[i]? = some (job, pc)) : ∃ outcome, pc = .done outcome := by
  refine remaining_eq_zero (p := plan loads job) ?_
  refine List.sum_eq_zero_iff_forall_eq_nat.mp hzero _ ?_
  exact List.mem_map.mpr ⟨(job, pc), List.mem_of_getElem? hi, rfl⟩

/-- The store after those handlers holds their batches, whole and in that order. -/
theorem serially_holds {store : AlertStore} {history : List ReceivedAlert}
    (hstore : store.Holds history) (s : Sink) (order : List ℕ) :
    (serially loads store s order).Holds (history ++ order.flatMap fun i =>
      match s.threads[i]? with | some (job, _) => (plan loads job).batch | none => []) := by
  unfold serially
  induction order generalizing store history with
  | nil => simpa using hstore
  | cons i order ih =>
    rw [List.foldl_cons, List.flatMap_cons, ← List.append_assoc]
    refine ih ?_
    cases s.threads[i]? with
    | none => simpa using hstore
    | some e =>
      show (alone loads e.1 store).2.store.Holds (history ++ (plan loads e.1).batch)
      rw [alone_store]
      cases plan loads e.1 with
      | ask | answer | raise => simpa [Plan.effect, Plan.batch] using hstore
      | add alerts => exact hstore.addAll alerts

/-- The state in which nothing is left to the handlers. -/
structure Drained (loads : List UInt8 → Except LoadsError Json) (history : List ReceivedAlert)
    (s : Sink) : Prop where
  lock : s.lock = none
  /-- The store has what it had, and every accepted batch, in the order of the lock. -/
  store : s.store.Holds (history ++ s.order.flatMap fun i =>
    match s.threads[i]? with | some (job, _) => (plan loads job).batch | none => [])
  /-- No thread has taken the lock twice. -/
  once : s.order.Nodup
  /-- Every handler has ended, has written its records, and is in that order if it had a batch. -/
  handlers : ∀ i job pc, s.threads[i]? = some (job, pc) →
    (∃ outcome, pc = .done outcome) ∧ s.written i = (plan loads job).records ∧
    ((plan loads job).batch ≠ [] → i ∈ s.order)

theorem Run.drained {store : AlertStore} {history : List ReceivedAlert} {as : List Action}
    (hstore : store.Holds history) (h : Run loads store as s) (hzero : left loads s = 0) :
    Drained loads history s := by
  have hlinear := h.linear
  -- A holder would be a thread that is not done, and no thread has a step left.
  have hfree : s.lock = none := by
    by_contra hlock
    obtain ⟨i, hi⟩ := Option.ne_none_iff_exists'.mp hlock
    obtain ⟨job, pc, hi, -, hnot⟩ := h.holder hi
    obtain ⟨outcome, hout⟩ := done_of_left hzero hi
    exact hnot outcome hout
  -- With the lock free, the store is what the batches leave when they run one after another.
  have hserial : s.store = serially loads store s s.order := by
    rw [serially_eq]
    exact hlinear.free hfree
  refine ⟨hfree, hserial ▸ serially_holds hstore s s.order, hlinear.once, ?_⟩
  intro i job pc hi
  obtain ⟨outcome, rfl⟩ := done_of_left hzero hi
  refine ⟨⟨outcome, rfl⟩, ?_, ?_⟩
  · have hkept := h.kept.threads i job _ hi
    cases outcome with
    | ok response => exact hkept.1.symm
    | error exc =>
      obtain ⟨hplan, hnone⟩ := hkept
      rw [hplan, hnone]
      rfl
  · intro hbatch
    have hat := monitor_getElem? loads hi
    cases hplan : plan loads job with
    | add alerts =>
      rw [hplan] at hat
      cases outcome <;> exact (hlinear.left_before hat).1
    | ask | answer | raise =>
      rw [hplan] at hbatch
      exact absurd rfl hbatch

end Step

end Sink

namespace ThreadingServer

section Step

variable [Unicode] {loads : List UInt8 → Except LoadsError Json} {v v' : ThreadingServer}

/-! ## With the clients in front

The count of the server adds to that of the sink one step for each body that is there to be read,
and the steps of the handler behind it. A connection whose body is not there counts nothing, for
none of its steps is one of the server's to take. -/

/-- The steps that are left to the handlers that need not wait for their clients. -/
def left (loads : List UInt8 → Except LoadsError Json) (v : ThreadingServer) : ℕ :=
  ((v.incoming.filter Incoming.ready).map fun c => (plan loads c.job).size + 1).sum +
    Sink.left loads v.sink

/-- The requests that need not wait, in the sink or before it. -/
def arrived (v : ThreadingServer) : List Job :=
  v.sink.threads.map Prod.fst ++ (v.incoming.filter Incoming.ready).map Incoming.job

end Step

end ThreadingServer
end AlertSink
end ObservabilityStack
