import ObservabilityStack.AlertSink.Handlers
import ObservabilityStack.Lib.Monitor

/-!
# One handler after the other

The methods of the store are critical sections under its lock, so the threads of the server are
those of `Monitor`: what the store holds, and what a handler reads off it, is as if the sections had
run one after the other. With what a plan says of the rest of a handler, every handler answers and
logs as it would have alone, on the store the handlers before it leave.

Linearizability is the guarantee a client can use: it need not know that there are threads. The
order is that in which the lock was taken, and it respects real time, so a notification that has
been answered is in every list that is asked for afterwards (`order_of_done`).

Handlers that never come to the lock, those of bad requests, are in no order. They answer as they
would have alone on any store, so `Run.likeAlone` may put them behind all the others.
-/

set_option autoImplicit false

namespace ObservabilityStack
namespace AlertSink

open Python (Json latin1)
open Transition

/-- What a plan does under the lock. -/
def Plan.critical : Plan → Monitor.Critical AlertStore (Option Response)
  | .ask query => ⟨[], fun store => some ⟨.ok, query.payload store⟩⟩
  | .add alerts => ⟨alerts.map fun alert store => store.append alert,
      fun _ => some ⟨.ok, acceptedPayload alerts.length⟩⟩
  | .answer _ _ | .raise _ => ⟨[], fun _ => none⟩

/-- Where a thread is with respect to the lock. -/
def phase : Plan → Pc → Monitor.Phase AlertStore (Option Response)
  | .answer _ _, _ | .raise _, _ | _, .start => .outside
  | _, .adding _ rest => .inside (rest.map fun alert store => store.append alert)
  | _, .copying _ => .inside []
  | _, .logging _ response | _, .done (.ok response) => .left (some response)
  | _, .done (.error _) => .left none

theorem phase_start (p : Plan) : phase p .start = .outside := by
  cases p <;> rfl

theorem phase_done (p : Plan) (outcome : Except Escaped Response)
    (rest : List (AlertStore → AlertStore)) : phase p (.done outcome) ≠ .inside rest := by
  cases p <;> cases outcome <;> exact fun h => nomatch h

namespace Sink

section Step

variable [Unicode] {loads : List UInt8 → Except LoadsError Json} {s s' : Sink} {a : Action}

/-! ## The threads take turns at the lock

The refinement. A state of the sink is one of `Monitor` when everything is forgotten but the lock,
the store and how far each section has come; steps before and behind the lock become none. -/

/-- The sink, as threads that take turns at one lock. -/
def monitor (loads : List UInt8 → Except LoadsError Json) (s : Sink) :
    Monitor.State AlertStore (Option Response) :=
  ⟨s.store, s.lock, s.order,
    s.threads.map fun e => ((plan loads e.1).critical, phase (plan loads e.1) e.2)⟩

variable (loads) in
theorem monitor_getElem? {i : ℕ} {job : Job} {pc : Pc} (hi : s.threads[i]? = some (job, pc)) :
    (monitor loads s).threads[i]? =
      some ((plan loads job).critical, phase (plan loads job) pc) := by
  show (s.threads.map _)[i]? = _
  rw [List.getElem?_map, hi]
  rfl

theorem monitor_setPc (s : Sink) (i : ℕ) (job : Job) (pc : Pc) :
    monitor loads (s.setPc i job pc) = { monitor loads s with
      threads := (monitor loads s).threads.set i
        ((plan loads job).critical, phase (plan loads job) pc) } := by
  unfold monitor setPc
  rw [List.map_set]

/-- A thread that goes on outside of the lock does not move for the others. -/
theorem monitor_elsewhere {i : ℕ} {job : Job} {pc pc' : Pc}
    (hi : s.threads[i]? = some (job, pc))
    (hphase : phase (plan loads job) pc' = phase (plan loads job) pc) :
    monitor loads (s.setPc i job pc') = monitor loads s := by
  unfold monitor setPc
  dsimp only
  rw [Threads.map_set_of_eq hi (by rw [hphase])]

/-- A step of a thread is a step at the lock, or none. -/
theorem Stepped.monitor (hs : Kept loads s) (h : Stepped loads s a s') :
    ∃ bs, Steps Monitor.next Anywhere (monitor loads s) bs (monitor loads s') := by
  cases h with
  | arrive job =>
    refine ⟨[.spawn (plan loads job).critical], .single trivial ?_⟩
    -- A new thread stands outside its critical section, whatever its plan is.
    have hphase : phase (plan loads job) .start = .outside := by
      cases plan loads job <;> rfl
    simp only [Monitor.next, Sink.monitor, List.map_append, List.map_cons, List.map_nil, hphase]
  | ask i job query hi hplan hfree =>
    refine ⟨[.acquire i], .single trivial ?_⟩
    have hat := monitor_getElem? loads hi
    rw [hplan] at hat
    rw [Monitor.next_acquire hat hfree, monitor_setPc, hplan]
    rfl
  | add i job alerts hi hplan hfree =>
    refine ⟨[.acquire i], .single trivial ?_⟩
    have hat := monitor_getElem? loads hi
    rw [hplan] at hat
    rw [Monitor.next_acquire hat hfree, monitor_setPc, hplan]
    rfl
  | answer i job records response hi hplan =>
    refine ⟨[], ?_⟩
    rw [monitor_elsewhere hi (by rw [hplan]; rfl)]
    exact .refl
  | raise i job exc hi hplan =>
    refine ⟨[], ?_⟩
    rw [monitor_elsewhere hi (by rw [hplan]; rfl)]
    exact .refl
  | append i job alerts alert rest hi =>
    -- One append is one update of the monitor; the lock is held across all of them.
    refine ⟨[.update i], .single trivial ?_⟩
    obtain ⟨hplan, -⟩ := hs.threads i job _ hi
    have hat := monitor_getElem? loads hi
    rw [hplan] at hat
    rw [Monitor.next_update hat, monitor_setPc, hplan]
    rfl
  | added i job alerts hi =>
    refine ⟨[.release i], .single trivial ?_⟩
    obtain ⟨hplan, -⟩ := hs.threads i job _ hi
    have hat := monitor_getElem? loads hi
    rw [hplan] at hat
    rw [Monitor.next_release hat, monitor_setPc, hplan]
    rfl
  | copied i job query hi =>
    refine ⟨[.release i], .single trivial ?_⟩
    obtain ⟨hplan, -⟩ := hs.threads i job _ hi
    have hat := monitor_getElem? loads hi
    rw [hplan] at hat
    rw [Monitor.next_release hat, monitor_setPc, hplan]
    rfl
  | log i job record rest response hi =>
    refine ⟨[], ?_⟩
    -- The log is not part of the monitor, so a log line is a step of nobody.
    have hsame : Sink.monitor loads { s with log := s.log ++ [(i, record)] } =
        Sink.monitor loads s := rfl
    have hi' : ({ s with log := s.log ++ [(i, record)] } : Sink).threads[i]? =
        some (job, .logging (record :: rest) response) := hi
    rw [monitor_elsewhere hi' (by cases plan loads job <;> rfl), hsame]
    exact .refl
  | respond i job response hi =>
    refine ⟨[], ?_⟩
    rw [monitor_elsewhere hi (by cases plan loads job <;> rfl)]
    exact .refl

theorem Run.step {store : AlertStore} {as : List Action} (h : Run loads store as s)
    (hn : next loads s a = some s') : Run loads store (as ++ [a]) s' :=
  Steps.snoc h trivial hn

theorem Run.kept {store : AlertStore} {as : List Action} (h : Run loads store as s) :
    Kept loads s :=
  h.invariant (kept_start store) fun _ _ _ hs _ hn => hs.step (next_cases hn)

/-- **The sink refines the threads at one lock.** -/
theorem Run.linear {store : AlertStore} {as : List Action} (h : Run loads store as s) :
    Monitor.Linear store (monitor loads s) := by
  obtain ⟨-, bs, hrun⟩ := h.simulate (monitor loads) (kept_start store)
    fun _ _ _ hs _ hn => ⟨hs.step (next_cases hn), (next_cases hn).monitor hs⟩
  exact Monitor.Linear.of_steps hrun

/-- A step of a thread moves this thread, which keeps its request. -/
theorem Stepped.threads {i : ℕ} (h : Stepped loads s (.step i) s') :
    ∃ job pc pc', s.threads[i]? = some (job, pc) ∧ s'.threads = s.threads.set i (job, pc') := by
  cases h with
  | ask _ job query hi => exact ⟨job, _, _, hi, rfl⟩
  | add _ job alerts hi => exact ⟨job, _, _, hi, rfl⟩
  | answer _ job records response hi => exact ⟨job, _, _, hi, rfl⟩
  | raise _ job exc hi => exact ⟨job, _, _, hi, rfl⟩
  | append _ job alerts alert rest hi => exact ⟨job, _, _, hi, rfl⟩
  | added _ job alerts hi => exact ⟨job, _, _, hi, rfl⟩
  | copied _ job query hi => exact ⟨job, _, _, hi, rfl⟩
  | log _ job record rest response hi => exact ⟨job, _, _, hi, rfl⟩
  | respond _ job response hi => exact ⟨job, _, _, hi, rfl⟩

theorem job_kept {as : List Action} (h : Steps (next loads) Anywhere s as s') {i : ℕ} {job : Job}
    {pc : Pc} (hi : s.threads[i]? = some (job, pc)) : ∃ pc', s'.threads[i]? = some (job, pc') := by
  refine h.invariant (I := fun s' => ∃ pc', s'.threads[i]? = some (job, pc')) ⟨pc, hi⟩ ?_
  intro s₁ a s₂ hs _ hn
  obtain ⟨pc₁, hi₁⟩ := hs
  cases a with
  | arrive new =>
    cases hn
    exact ⟨pc₁, (List.getElem?_append_left (List.getElem?_eq_some_iff.mp hi₁).1).trans hi₁⟩
  | step j =>
    obtain ⟨job', pc', pc'', hj, hset⟩ := (next_cases hn).threads
    rw [hset, Threads.getElem?_set hj]
    split
    · rename_i hij
      subst hij
      cases hj.symm.trans hi₁
      exact ⟨pc'', rfl⟩
    · exact ⟨pc₁, hi₁⟩

/-! ## One after the other

Back from `Monitor` to the handlers: the store it computes from an order of sections is the one the
handlers themselves leave when they run in that order. -/

/-- The store, if those handlers had run one after the other. -/
def serially (loads : List UInt8 → Except LoadsError Json) (store : AlertStore) (s : Sink)
    (order : List ℕ) : AlertStore :=
  order.foldl (fun store i => match s.threads[i]? with
    | some (job, _) => (alone loads job store).2.store
    | none => store) store

omit [Unicode] in
theorem perform_critical (p : Plan) (store : AlertStore) :
    Monitor.perform p.critical.updates store = (p.effect store).store := by
  cases p with
  | ask | answer | raise => rfl
  | add alerts =>
    show (alerts.map _).foldl _ store = (store.addAll alerts).1
    rw [List.foldl_map, AlertStore.addAll_eq]

theorem alone_store (job : Job) (store : AlertStore) :
    (alone loads job store).2.store = ((plan loads job).effect store).store :=
  congrArg Effect.store (alone_effect loads job store)

theorem serially_eq (store : AlertStore) (s : Sink) (order : List ℕ) :
    serially loads store s order = Monitor.serial store (monitor loads s).threads order := by
  unfold serially Monitor.serial
  congr 1
  funext store i
  cases hi : s.threads[i]? with
  | none =>
    have hnone : (monitor loads s).threads[i]? = none := by
      show (s.threads.map _)[i]? = none
      rw [List.getElem?_map, hi]
      rfl
    rw [hnone]
  | some e =>
    rw [monitor_getElem? loads (show s.threads[i]? = some (e.1, e.2) from hi)]
    show (alone loads e.1 store).2.store = Monitor.perform _ store
    rw [alone_store, perform_critical]

/-- The handler has answered and logged as it would have alone. -/
def LikeAlone (loads : List UInt8 → Except LoadsError Json) (job : Job) (store : AlertStore)
    (written : List LogRecord) (outcome : Except Escaped Response) : Prop :=
  (alone loads job store).1 = outcome.map (fun _ => ()) ∧
    (alone loads job store).2.wfile = outcome.toOption.toList ∧
    (alone loads job store).2.log = written

theorem likeAlone_iff {job : Job} {store : AlertStore} {written : List LogRecord}
    {outcome : Except Escaped Response} : LikeAlone loads job store written outcome ↔
      ((plan loads job).effect store).result = outcome.map (fun _ => ()) ∧
      ((plan loads job).effect store).responses = outcome.toOption.toList ∧
      ((plan loads job).effect store).log = written := by
  rw [← alone_effect]
  exact Iff.rfl

theorem Run.likeAlone {store : AlertStore} {as : List Action} (h : Run loads store as s) {i : ℕ}
    {job : Job} {outcome : Except Escaped Response}
    (hi : s.threads[i]? = some (job, .done outcome)) :
    LikeAlone loads job (serially loads store s (s.order.takeWhile fun j => j ≠ i))
      (s.written i) outcome := by
  have hlinear := h.linear
  have hat := monitor_getElem? loads hi
  have hkept := h.kept.threads i job _ hi
  rw [likeAlone_iff]
  -- What a handler read under the lock it read off the serial store.
  have hread : ∀ r, phase (plan loads job) (.done outcome) = .left r →
      r = (plan loads job).critical.result ((plan loads job).effect
        (serially loads store s (s.order.takeWhile fun j => j ≠ i))).store := by
    intro r hphase
    rw [hphase] at hat
    rw [serially_eq, ← perform_critical]
    exact (hlinear.left_before hat).2
  cases outcome with
  | error exc =>
    obtain ⟨hplan, hnone⟩ := hkept
    rw [hplan, hnone]
    exact ⟨rfl, rfl, rfl⟩
  | ok response =>
    obtain ⟨hrecords, hpermits⟩ := hkept
    cases hplan : plan loads job with
    | ask query =>
      rw [hplan] at hread hrecords
      refine ⟨rfl, ?_, hrecords⟩
      exact congrArg Option.toList (hread (some response) rfl).symm
    | add alerts =>
      rw [hplan] at hread hrecords
      refine ⟨rfl, ?_, hrecords⟩
      exact congrArg Option.toList (hread (some response) rfl).symm
    | answer records response' =>
      rw [hplan] at hpermits hrecords
      exact ⟨rfl, congrArg (fun r => [r]) (show response = response' from hpermits).symm, hrecords⟩
    | raise exc =>
      rw [hplan] at hpermits
      exact hpermits.elim

theorem order_grows {as : List Action} (h : Steps (next loads) Anywhere s as s') :
    s.order <+: s'.order := by
  refine h.invariant (I := fun s' => s.order <+: s'.order) (List.prefix_refl _) ?_
  intro s₁ a s₂ hs _ hn
  cases next_cases hn with
  | ask | add => exact hs.trans (List.prefix_append _ _)
  | arrive | answer | raise | append | added | copied | log | respond => exact hs

/-- A handler that was done before another came is before it in the order, if it is in it. -/
theorem Run.order_of_done {store : AlertStore} {as bs : List Action} (h : Run loads store as s)
    (hlater : Steps (next loads) Anywhere s bs s') {i j : ℕ} {job : Job}
    {outcome : Except Escaped Response} (hi : s.threads[i]? = some (job, .done outcome))
    (hj : s.threads.length ≤ j) (hi' : i ∈ s'.order) :
    s'.order.idxOf i < s'.order.idxOf j := by
  obtain ⟨pc', hi''⟩ := job_kept hlater hi
  have hlinear := h.linear
  have hlinear' : Monitor.Linear store (monitor loads s') := Run.linear (h.trans hlater)
  -- The earlier handler has been through the lock, and the later one did not exist then.
  have hmem : i ∈ s.order := by
    have hat := monitor_getElem? loads hi
    have hat' := monitor_getElem? loads hi''
    cases hplan : plan loads job with
    | ask query =>
      rw [hplan] at hat
      cases outcome <;> exact (hlinear.left_before hat).1
    | add alerts =>
      rw [hplan] at hat
      cases outcome <;> exact (hlinear.left_before hat).1
    | answer records response =>
      rw [hplan] at hat'
      exact absurd hi' (hlinear'.outside i _ hat')
    | raise exc =>
      rw [hplan] at hat'
      exact absurd hi' (hlinear'.outside i _ hat')
  have hnotin : j ∉ s.order := by
    intro hin
    have hlt := hlinear.bound j hin
    rw [show (monitor loads s).threads.length = s.threads.length from List.length_map _] at hlt
    omega
  obtain ⟨added, hadded⟩ := order_grows hlater
  rw [← hadded, List.idxOf_append_of_mem hmem, List.idxOf_append_of_notMem hnotin]
  exact Nat.lt_add_right _ (List.idxOf_lt_length_of_mem hmem)

end Step

/-- **Handlers are linearizable.** However the threads of the server interleave, every handler that
    is done has answered, or ended, and logged as it would have on a store it has for itself: the
    one the handlers that took the lock before it leave when they run one after the other. While
    the lock is free the store is the one they all leave so. A handler that was done before another
    one came is before it in that order. -/
theorem handlers_linearize [Unicode] {loads : List UInt8 → Except LoadsError Json}
    {store : AlertStore} {as : List Action} {s : Sink} (h : Run loads store as s) :
    s.order.Nodup ∧
    (s.lock = none → s.store = serially loads store s s.order) ∧
    (∀ i job outcome, s.threads[i]? = some (job, .done outcome) →
      LikeAlone loads job (serially loads store s (s.order.takeWhile fun j => j ≠ i))
        (s.written i) outcome) ∧
    ∀ bs s', Steps (next loads) Anywhere s bs s' → s.order <+: s'.order ∧
      ∀ i job outcome, s.threads[i]? = some (job, .done outcome) →
        ∀ j, s.threads.length ≤ j → i ∈ s'.order → s'.order.idxOf i < s'.order.idxOf j := by
  have hlinear := h.linear
  refine ⟨hlinear.once, ?_, ?_, ?_⟩
  · intro hfree
    rw [serially_eq]
    exact hlinear.free hfree
  · exact fun i job outcome hi => h.likeAlone hi
  · exact fun bs s' hlater => ⟨order_grows hlater, fun i job outcome hi j hj hi' =>
      h.order_of_done hlater hi hj hi'⟩

/-- Every body is a notification of two alerts. -/
def loadsTwoAlerts (_ : List UInt8) : Except LoadsError Json :=
  .ok (.obj [("version", .str "4"), ("alerts", .arr [
    .obj [("status", .str "firing"), ("labels", .obj [("alertname", .str "TargetDown")])],
    .obj [("status", .str "firing"), ("labels", .obj [("alertname", .str "ProbeFailed")])]])])

def post : Job := ⟨⟨"POST", "/webhook/pager", [("Content-Length", "1")]⟩, [0]⟩

def get : Job := ⟨⟨"GET", "/alerts/firing", []⟩, []⟩

/-- The GET takes the lock when the batch is in and no record of it is written. -/
def overlapping : List ℕ := [0, 0, 0, 0, 1, 0, 1, 1, 0, 0]

def emptyStore : AlertStore := ⟨500, [], by decide, by decide⟩

def bothArrived : Sink := { start emptyStore with threads := [(post, .start), (get, .start)] }

theorem bothArrived_run :
    @Run latin1 loadsTwoAlerts emptyStore [.arrive post, .arrive get] bothArrived :=
  steps_of_exec rfl

theorem overlapping_runs : (exec (@next latin1 loadsTwoAlerts) bothArrived
    (overlapping.map .step)).isSome := by
  decide +kernel

def overlappingEnd : Sink :=
  (exec (@next latin1 loadsTwoAlerts) bothArrived (overlapping.map .step)).get overlapping_runs

theorem overlapping_steps : Steps (@next latin1 loadsTwoAlerts) Anywhere bothArrived
    (overlapping.map .step) overlappingEnd :=
  steps_of_exec (Option.some_get overlapping_runs).symm

theorem handlers_linearize_overlapping : ∃ job outcome,
    overlappingEnd.threads[1]? = some (job, .done outcome) ∧
      @LikeAlone latin1 loadsTwoAlerts job
        (@serially latin1 loadsTwoAlerts emptyStore overlappingEnd
          (overlappingEnd.order.takeWhile fun j => j ≠ 1)) (overlappingEnd.written 1) outcome := by
  have hdone : (overlappingEnd.threads[1]?.bind fun t => t.2.outcome).isSome := by decide +kernel
  obtain ⟨outcome, houtcome⟩ := Option.isSome_iff_exists.mp hdone
  obtain ⟨⟨job, pc⟩, hi, hpc⟩ := Option.bind_eq_some_iff.mp houtcome
  obtain rfl : pc = .done outcome := Pc.outcome_eq_some.mp hpc
  exact ⟨job, outcome, hi, (@handlers_linearize latin1 loadsTwoAlerts _ _ _
    (bothArrived_run.trans overlapping_steps)).2.2.1 1 job outcome hi⟩

end Sink
end AlertSink
end ObservabilityStack
