import ObservabilityStack.Deployment.Model
import ObservabilityStack.SampleApp.Exclusion

/-!
# Which response belongs to which request

The request of a slot is on the wire, or at the service, or has not been sent (`Sent.balance`):
it is never there twice, because `Loadgen.Delivery` gives a slot to one worker once. So a response
is read by the worker whose request it answers, and by nobody else, and no response is read twice
(`Read`).

The generator knows which request it has sent and the service which one it has received, and
neither has a name for the pair. The deployment has, since it sees both: every request on the wire
and every task of the service carries its `Origin`. The invariants of this module are about
origins. They are what allows the two accounts, one by slots and one by tasks, to be compared
request by request, and they hold of every interleaving, with a wire that delays and loses what it
likes.

There is no duplication on the wire. HTTP is carried by TCP, and neither `transport.send` nor the
service sends anything twice.
-/

set_option autoImplicit false

namespace ObservabilityStack
namespace Deployment

open Loadgen (Choosable LoadGenerator WorkerPc attempted attempted_snoc workerStep_cases)
open SampleApp (Request Service ServiceSettings Task Validation)
open Transition

variable {v : Validation} {sampler : ℚ → ℕ → Bool} {settings : ServiceSettings}
  {g : LoadGenerator} {c c' : State} {a : Action} {t : ℚ} {as : List Action}

/-! ## What a request asks for

A worker asks for a path of the mix, and an arming for a path of the fault interface. So the origin
of a request decides whether the middleware counts it. -/

/-- What the origin of a request says about it. -/
def Expected (g : LoadGenerator) (request : Request) : Origin → Prop
  | .slot _ => ∃ spec, Choosable spec ∧ request = ⟨spec.method, spec.path⟩
  | .arm _ fault => (∃ phase ∈ g.scenario.phases, phase.fault = some fault) ∧
      request = ⟨fault.method, fault.path⟩
  | .other => True

/-- Requests of the mix are instrumented… -/
theorem Expected.instrumented {request : Request} {k : ℕ} (h : Expected g request (.slot k)) :
    request.instrumented = true := by
  obtain ⟨spec, hspec, rfl⟩ := h
  have hall : ∀ spec ∈ Loadgen.requestMix.map Prod.fst,
      (⟨spec.method, spec.path⟩ : Request).instrumented = true := by decide
  exact hall spec hspec

/-- …and those of `arm` are not. -/
theorem Expected.uninstrumented {request : Request} {n : ℕ} {fault : Loadgen.Fault}
    (h : Expected g request (.arm n fault)) : request.instrumented = false := by
  obtain ⟨-, rfl⟩ := h
  unfold Loadgen.Fault.path Loadgen.Fault.method
  cases fault.kind with
  | latency | errors | clear => decide

theorem outgoing_expected {d d' : Loadgen.State} {a : Loadgen.Action} {n : ℕ} {origin : Origin}
    {request : Request} (hnext : Loadgen.next g d a = some d')
    (hout : outgoing n d' a = some (origin, request)) : Expected g request origin := by
  cases a with
  | stop => cases hout
  | dispatcher a =>
    cases Loadgen.dispatcherStep_cases hnext with
    | readNow now s' hpc hsel =>
      simp only [outgoing] at hout
      split at hout
      · rename_i phase fault now' harming
        cases hout
        cases hsel with
        | faulted phase fault hat hcur hfault =>
          cases harming
          exact ⟨⟨phase, Loadgen.Scenario.mem_of_phaseAt hat, hfault⟩, rfl⟩
        | backwards | ended | same | quiet => cases harming
      · cases hout
    | readStarted | submit | checkStop | armed | armFailed | putNowait | putFull | recordDropped
    | pace | wake | putShutdown | leave | propagate => cases hout
  | worker w a =>
    obtain ⟨pc, q, st, pc', q', st', hpc, -, -, hmove, rfl⟩ := workerStep_cases hnext
    cases hmove with
    | choose k spec now q st hspec =>
      -- The worker has chosen what it sends.
      simp only [outgoing, Threads.getElem?_set hpc, if_true, Option.some.injEq,
        Prod.mk.injEq] at hout
      obtain ⟨rfl, rfl⟩ := hout
      exact ⟨spec, hspec, rfl⟩
    | getSlot | getShutdown | sent | sendFailed | record | logException => cases hout

/-- The requests that have arrived, and whose they are. -/
def State.arrived (c : State) : List (Origin × Request) :=
  c.origins.zip (c.service.app.tasks.map Task.request)

/-- Tasks are whose they are said to be. -/
structure Honest (g : LoadGenerator) (c : State) : Prop where
  /-- Every task has an origin. -/
  aligned : c.origins.length = c.service.app.tasks.length
  wire : ∀ m ∈ c.wire, Expected g m.2 m.1
  arrived : ∀ m ∈ c.arrived, Expected g m.2 m.1

theorem honest_init (g : LoadGenerator) (t : ℚ) : Honest g (.init t) where
  aligned := rfl
  wire _ hm := nomatch hm
  arrived _ hm := nomatch hm

/-- One more request arrives, or none. -/
theorem Honest.arrive (hc : Honest g c) (service : Service) {wire : List (Origin × Request)}
    (new : List (Origin × Request)) (hwire : ∀ m ∈ wire, m ∈ c.wire)
    (hnew : ∀ m ∈ new, Expected g m.2 m.1)
    (htasks : service.app.tasks.map Task.request =
      c.service.app.tasks.map Task.request ++ new.map Prod.snd) :
    Honest g { c with
      service := service, wire := wire, origins := c.origins ++ new.map Prod.fst } := by
  have hlength : c.origins.length = (c.service.app.tasks.map Task.request).length := by
    rw [hc.aligned, List.length_map]
  refine ⟨?_, fun m hm => hc.wire m (hwire m hm), ?_⟩
  · have htotal := congrArg List.length htasks
    simp only [List.length_map, List.length_append] at htotal ⊢
    rw [htotal, hc.aligned]
  · intro m hm
    unfold State.arrived at hm
    rw [htasks, List.zip_append hlength, List.zip_map', List.map_id'] at hm
    rcases List.mem_append.mp hm with hm | hm
    · exact hc.arrived m hm
    · exact hnew m hm

theorem Honest.step (hc : Honest g c) (h : Stepped v sampler settings g c a c') :
    Honest g c' := by
  cases h with
  | driver a driver hlocal hnext =>
    refine ⟨hc.aligned, ?_, hc.arrived⟩
    intro m hm
    rcases List.mem_append.mp hm with hm | hm
    · exact hc.wire m hm
    · exact outgoing_expected hnext (Option.mem_toList.mp hm)
  | exchanged a origin seen ending driver hawaited hended hnext =>
    exact ⟨hc.aligned, hc.wire, hc.arrived⟩
  | service a service hserves hnext =>
    have htasks := (Service.next_cases hnext).requests
    have harrive := hc.arrive service
      (a.arrival.map fun request => (Origin.other, request)).toList (fun m (hm : m ∈ c.wire) => hm)
      (by cases a.arrival <;> simp [Expected]) (by cases h : a.arrival <;> simp [htasks, h])
    cases h : a.arrival <;> simpa [h] using harrive
  | arrive origin request traceId spanId service hwire hnext =>
    exact hc.arrive service [(origin, request)] (fun m hm => List.mem_of_mem_erase hm)
      (by simpa using hc.wire _ hwire) (Service.next_cases hnext).requests

theorem Honest.expected (hc : Honest g c) {i : ℕ} {origin : Origin} {task : Task}
    (horigin : c.origins[i]? = some origin) (htask : c.service.app.tasks[i]? = some task) :
    Expected g task.request origin := by
  refine hc.arrived (origin, task.request) (List.mem_of_getElem? (i := i) ?_)
  rw [State.arrived, List.getElem?_zip_eq_some, List.getElem?_map, htask]
  exact ⟨horigin, rfl⟩

theorem Run.honest (h : Run v sampler settings g t as c) : Honest g c :=
  h.invariant (honest_init g t) fun _ _ _ hc _ hn => hc.step (next_cases hn)

/-! ## One request for a slot

A balance with three places where the request of a slot can be. A step moves it from one to the
next, and the sum is one from the moment the slot is taken. -/

theorem attempted_of_awaited {a : Loadgen.Action} {n : ℕ} (h : awaited n a = none) :
    Loadgen.Action.attempted? a = none := by
  cases a with
  | stop | dispatcher => rfl
  | worker w a =>
    cases a with
    | send => cases h
    | getSlot | getShutdown | choose | record | logException => rfl

theorem outgoing_of_awaited {a : Loadgen.Action} {n : ℕ} {driver : Loadgen.State}
    {x : Origin × Loadgen.SendResult} (h : awaited n a = some x) : outgoing n driver a = none := by
  cases a with
  | stop => rfl
  | dispatcher a =>
    cases a with
    | arm => rfl
    | _ => cases h
  | worker w a =>
    cases a with
    | send => rfl
    | getSlot | getShutdown | choose | record | logException => cases h

/-- The worker is in `send`, with the slot. -/
def sending (k : ℕ) : WorkerPc → ℕ
  | .sending k' _ _ => if k' = k then 1 else 0
  | _ => 0

/-- How often the slot is on the wire. -/
def State.onWire (c : State) (k : ℕ) : ℕ := (c.wire.map Prod.fst).count (.slot k)

/-- As often as a request for the slot was sent, its `send` is over or is under way. -/
def Sent (as : List Action) (c : State) : Prop :=
  ∀ k, c.onWire k + c.origins.count (.slot k) =
    (attempted (driverActions as)).count k + (c.driver.workers.map (sending k)).sum

/-- A request is sent by a worker that was not in `send`, and the end of a `send` is an attempt. -/
theorem sending_balance {d d' : Loadgen.State} {a : Loadgen.Action}
    (hnext : Loadgen.next g d a = some d') (n k : ℕ) :
    ((outgoing n d' a).toList.map Prod.fst).count (.slot k) + (d.workers.map (sending k)).sum =
      (Loadgen.Action.attempted? a).toList.count k + (d'.workers.map (sending k)).sum := by
  cases a with
  | stop =>
    cases hnext
    rfl
  | dispatcher a =>
    cases Loadgen.dispatcherStep_cases hnext with
    | submit m hpc => simp [outgoing, Loadgen.Action.attempted?, sending]
    | readNow now s' hpc hsel =>
      rw [hsel.frame.2.1]
      simp only [outgoing]
      split <;> simp [Loadgen.Action.attempted?]
    | readStarted | checkStop | armed | armFailed | putNowait | putFull | recordDropped | pace
    | wake | putShutdown | leave | propagate => rfl
  | worker w a =>
    obtain ⟨pc, q, st, pc', q', st', hpc, -, -, hmove, rfl⟩ := workerStep_cases hnext
    -- One worker moves, and the sum over the workers changes by what changes for this one.
    have hsum := Threads.sum_set (b := pc') (sending k) hpc
    cases hmove with
    | choose k' spec now q st hspec =>
      simp only [outgoing, Threads.getElem?_set hpc, if_true, Loadgen.Action.attempted?,
        Option.toList_some, Option.toList_none, List.map_cons, List.map_nil, List.count_singleton,
        List.count_nil, sending, beq_iff_eq, Origin.slot.injEq] at hsum ⊢
      omega
    | getSlot | getShutdown | sent | sendFailed | record | logException =>
      simp only [outgoing, Loadgen.Action.attempted?, Option.toList_some, Option.toList_none,
        List.map_nil, List.count_singleton, List.count_nil, sending, beq_iff_eq] at hsum ⊢
      omega

theorem Sent.step (hc : Sent as c) (h : Stepped v sampler settings g c a c') :
    Sent (as ++ [a]) c' := by
  intro k
  have hk := hc k
  rw [driverActions_snoc]
  cases h with
  | driver a driver hlocal hnext =>
    have hbalance := sending_balance hnext c.arms k
    have hnone : Loadgen.Action.attempted? a = none := attempted_of_awaited hlocal
    simp only [State.onWire, Action.ofDriver, Option.toList_some, attempted_snoc, hnone,
      Option.toList_none, List.append_nil, List.map_append, List.count_append, List.count_nil]
      at hk hbalance ⊢
    omega
  | exchanged a origin seen ending driver hawaited hended hnext =>
    have hbalance := sending_balance hnext c.arms k
    rw [outgoing_of_awaited hawaited] at hbalance
    simp only [State.onWire, Action.ofDriver, Option.toList_some, attempted_snoc,
      Option.toList_none, List.map_nil, List.count_append, List.count_nil] at hk hbalance ⊢
    omega
  | service a service hserves hnext =>
    have hothers : (a.arrival.map fun _ => Origin.other).toList.count (.slot k) = 0 := by
      cases a.arrival <;> rfl
    simp only [Action.ofDriver, Option.toList_none, List.append_nil, List.count_append, hothers]
    exact hk
  -- The request moves from the wire to the tasks; nothing is sent.
  | arrive origin request traceId spanId service hwire hnext =>
    have hmoved := ((List.perm_cons_erase hwire).map Prod.fst).count_eq (.slot k)
    simp only [State.onWire, Action.ofDriver, Option.toList_none, List.append_nil,
      List.count_append, List.map_cons, List.count_cons, List.count_nil] at hk hmoved ⊢
    omega

theorem Run.sent (h : Run v sampler settings g t as c) : Sent as c := by
  refine h.invariant_trace (I := Sent) (fun _ => rfl) ?_
  intro as c a c' hc _ hn
  exact hc.step (next_cases hn)

/-- What is being sent is ahead of its attempt. -/
theorem sending_le_ahead (k : ℕ) (workers : List WorkerPc) :
    (workers.map (sending k)).sum ≤ (workers.map (WorkerPc.ahead k)).sum := by
  apply List.sum_le_sum
  intro pc _
  cases pc with
  | sending => exact le_rfl
  | waiting | holding | answered | failing | exited => exact Nat.zero_le _

theorem Run.sent_once (h : Run v sampler settings g t as c) (k : ℕ) :
    (attempted (driverActions as)).count k + (c.driver.workers.map (sending k)).sum ≤ 1 := by
  have hdelivery := h.driver.delivery
  have hcount := hdelivery.count k
  have hle := sending_le_ahead k c.driver.workers
  have honce := List.nodup_iff_count_le_one.mp hdelivery.nodup k
  omega

/-- **A slot has one request.** -/
theorem Run.slot_unique (h : Run v sampler settings g t as c) {i j k : ℕ}
    (hi : c.origins[i]? = some (.slot k)) (hj : c.origins[j]? = some (.slot k)) : i = j := by
  have hsent := h.sent k
  have honce := h.sent_once k
  exact Threads.index_unique (by omega) hi hj

/-! ## Responses

A response is read by ending a `send`, which names the task whose response it is. `Read` says of
the tasks named so far that they are all different and belong to slots that have been attempted. -/

def Action.response? : Action → Option ℕ
  | .exchanged (.worker _ _) (.response i) => some i
  | _ => none

/-- The tasks whose responses were read by a worker, in order. -/
def responses (as : List Action) : List ℕ := as.filterMap Action.response?

def Action.broken? : Action → Option ℕ
  | .exchanged (.worker _ (.send k _)) (.failed _)
  | .exchanged (.worker _ (.send k _)) (.raised _) => some k
  | _ => none

/-- The slots whose requests got no response, in order. -/
def broken (as : List Action) : List ℕ := as.filterMap Action.broken?

theorem responses_snoc (as : List Action) (a : Action) :
    responses (as ++ [a]) = responses as ++ a.response?.toList := by
  cases h : a.response? <;> simp [responses, h]

theorem broken_snoc (as : List Action) (a : Action) :
    broken (as ++ [a]) = broken as ++ a.broken?.toList := by
  cases h : a.broken? <;> simp [broken, h]

/-- Task `i` is of the slot's request, and its response can be read. -/
def State.Answers (c : State) (i k : ℕ) : Prop :=
  c.origins[i]? = some (.slot k) ∧ ∃ task outcome route seen, c.service.app.tasks[i]? = some task ∧
    task.pc = .finished outcome route ∧ reply outcome = some seen

theorem ended_response {origin : Origin} {i : ℕ} {seen : Except String Loadgen.Outcome}
    (h : c.ended origin (.response i) = some seen) :
    c.origins[i]? = some origin ∧ ∃ task outcome route outcome',
      c.service.app.tasks[i]? = some task ∧ task.pc = .finished outcome route ∧
        reply outcome = some outcome' ∧ seen = .ok outcome' := by
  unfold State.ended at h
  dsimp only at h
  split at h
  · rename_i horigin
    split at h
    · rename_i request started span outcome route htask
      obtain ⟨outcome', hreply, rfl⟩ := Option.map_eq_some_iff.mp h
      exact ⟨horigin, _, outcome, route, outcome', htask, rfl, hreply, rfl⟩
    · cases h
  · cases h

structure Read (as : List Action) (c : State) : Prop where
  /-- No response is read twice. -/
  nodup : (responses as).Nodup
  /-- What was read answers a slot whose `send` is over… -/
  answers : ∀ i ∈ responses as, ∃ k ∈ attempted (driverActions as), c.Answers i k
  /-- …and a `send` that is over has read a response, or got none. -/
  ended : ∀ k ∈ attempted (driverActions as), k ∈ broken as ∨ ∃ i ∈ responses as, c.Answers i k

/-- A task that has finished stays as it is. -/
theorem Stepped.finished (h : Stepped v sampler settings g c a c') {i : ℕ} {task : Task}
    {outcome : SampleApp.Outcome} {route : String} (htask : c.service.app.tasks[i]? = some task)
    (hpc : task.pc = .finished outcome route) : c'.service.app.tasks[i]? = some task := by
  have hawait : task.pc ≠ .awaiting := by
    rw [hpc]
    exact fun hne => nomatch hne
  cases h with
  | driver | exchanged => exact htask
  | service a service hserves hnext => exact (Service.next_cases hnext).finished htask hawait
  | arrive origin request traceId spanId service hwire hnext =>
    exact (Service.next_cases hnext).finished htask hawait

/-- A task stays whose it is. -/
theorem Stepped.origin (h : Stepped v sampler settings g c a c') {i : ℕ} {origin : Origin}
    (horigin : c.origins[i]? = some origin) : c'.origins[i]? = some origin := by
  have hkeep : ∀ new : List Origin, (c.origins ++ new)[i]? = some origin := by
    intro new
    rw [List.getElem?_append_left (List.getElem?_eq_some_iff.mp horigin).1]
    exact horigin
  cases h with
  | driver | exchanged => exact horigin
  | service | arrive => exact hkeep _

/-- What has been answered stays so. -/
theorem State.Answers.step {i k : ℕ} (hc : c.Answers i k)
    (h : Stepped v sampler settings g c a c') : c'.Answers i k := by
  obtain ⟨horigin, task, outcome, route, seen, htask, hpc, hreply⟩ := hc
  exact ⟨h.origin horigin, task, outcome, route, seen, h.finished htask hpc, hpc, hreply⟩

/-- What was over stays over. -/
theorem Read.kept (hc : Read as c) (a : Action) {k : ℕ}
    (hk : k ∈ attempted (driverActions as)) :
    k ∈ broken (as ++ [a]) ∨ ∃ i ∈ responses (as ++ [a]), c.Answers i k := by
  rw [responses_snoc, broken_snoc]
  rcases hc.ended k hk with hbroke | ⟨i, hi, hanswers⟩
  · exact Or.inl (List.mem_append_left _ hbroke)
  · exact Or.inr ⟨i, List.mem_append_left _ hi, hanswers⟩

/-- A step with which no `send` of a worker ends. -/
theorem Read.frame (hc : Read as c) (h : Stepped v sampler settings g c a c')
    (hread : a.response? = none)
    (hattempted : attempted (driverActions (as ++ [a])) = attempted (driverActions as)) :
    Read (as ++ [a]) c' where
  nodup := by
    rw [responses_snoc, hread]
    simpa using hc.nodup
  answers i hi := by
    rw [responses_snoc, hread] at hi
    obtain ⟨k, hk, hanswers⟩ := hc.answers i (by simpa using hi)
    exact ⟨k, hattempted ▸ hk, hanswers.step h⟩
  ended k hk := by
    rcases hc.kept a (hattempted ▸ hk) with hbroke | ⟨i, hi, hanswers⟩
    · exact Or.inl hbroke
    · exact Or.inr ⟨i, hi, hanswers.step h⟩

/-- The `send` of worker `w` ends. -/
theorem Read.exchanged (hc : Read as c) {w k : ℕ} {result : Loadgen.SendResult} {ending : Ending}
    {seen : Except String Loadgen.Outcome} {driver : Loadgen.State}
    (hended : c.ended (.slot k) ending = some seen)
    (hfresh : k ∉ attempted (driverActions as)) :
    Read (as ++ [.exchanged (.worker w (.send k result)) ending])
      { c with driver := driver } := by
  have hattempted :
      attempted (driverActions (as ++ [.exchanged (.worker w (.send k result)) ending])) =
        attempted (driverActions as) ++ [k] := by
    rw [driverActions_snoc, Action.ofDriver, Option.toList_some, attempted_snoc]
    rfl
  cases ending with
  | response i =>
    obtain ⟨horigin, task, outcome, route, seen', htask, hpc, hreply, -⟩ := ended_response hended
    have hanswers : c.Answers i k := ⟨horigin, task, outcome, route, seen', htask, hpc, hreply⟩
    refine ⟨?_, ?_, ?_⟩
    · rw [responses_snoc]
      refine List.nodup_append.mpr ⟨hc.nodup, List.nodup_singleton i, ?_⟩
      intro j hj i' hi' hij
      rw [List.mem_singleton.mp hi'] at hij
      subst hij
      -- The slot of a response that was read has been attempted.
      obtain ⟨k', hk', horigin', -⟩ := hc.answers j hj
      rw [horigin] at horigin'
      cases horigin'
      exact hfresh hk'
    · intro j hj
      rw [hattempted]
      rw [responses_snoc] at hj
      rcases List.mem_append.mp hj with hj | hj
      · obtain ⟨k', hk', hanswers'⟩ := hc.answers j hj
        exact ⟨k', List.mem_append_left _ hk', hanswers'⟩
      · rw [List.mem_singleton.mp hj]
        exact ⟨k, List.mem_append_right _ (List.mem_singleton.mpr rfl), hanswers⟩
    · intro k' hk'
      rw [hattempted] at hk'
      rcases List.mem_append.mp hk' with hk' | hk'
      · exact hc.kept _ hk'
      · rw [List.mem_singleton.mp hk', responses_snoc]
        exact Or.inr ⟨i, List.mem_append_right _ (List.mem_singleton.mpr rfl), hanswers⟩
  | failed | raised =>
    refine ⟨?_, ?_, ?_⟩
    · rw [responses_snoc]
      exact (List.append_nil (responses as)).symm ▸ hc.nodup
    · intro j hj
      rw [responses_snoc] at hj
      obtain ⟨k', hk', hanswers'⟩ := hc.answers j ((List.append_nil (responses as)) ▸ hj)
      rw [hattempted]
      exact ⟨k', List.mem_append_left _ hk', hanswers'⟩
    · intro k' hk'
      rw [hattempted] at hk'
      rcases List.mem_append.mp hk' with hk' | hk'
      · exact hc.kept _ hk'
      · rw [broken_snoc]
        exact Or.inl (List.mem_append_right _ hk')

/-- A worker that is in `send` has not attempted its slot before. -/
theorem Run.fresh (h : Run v sampler settings g t as c) {w k : ℕ} {spec : Loadgen.RequestSpec}
    {started : ℚ} (hw : c.driver.workers[w]? = some (.sending k spec started)) :
    k ∉ attempted (driverActions as) := by
  intro hmem
  have honce := h.sent_once k
  have hcount := List.count_pos_iff.mpr hmem
  have hsum : sending k (.sending k spec started) ≤ (c.driver.workers.map (sending k)).sum :=
    List.single_le_sum (fun _ _ => Nat.zero_le _) _
      (List.mem_map_of_mem (List.mem_of_getElem? hw))
  have hone : sending k (.sending k spec started) = 1 := if_pos rfl
  omega

theorem Run.read (h : Run v sampler settings g t as c) : Read as c := by
  have hboth : Run v sampler settings g t as c ∧ Read as c := by
    -- The run itself is carried along: that a worker in `send` has not attempted its slot is a
    -- fact about runs.
    refine h.invariant_trace (I := fun as c => Run v sampler settings g t as c ∧ Read as c)
      ⟨.refl, List.nodup_nil, fun _ hi => (nomatch hi), fun _ hk => (nomatch hk)⟩ ?_
    rintro as c a c' ⟨hrun, hc⟩ _ hn
    refine ⟨.snoc hrun trivial hn, ?_⟩
    have hstep := next_cases hn
    cases next_cases hn with
    | driver a driver hlocal hnext =>
      refine hc.frame hstep rfl ?_
      rw [driverActions_snoc, Action.ofDriver, Option.toList_some, attempted_snoc,
        attempted_of_awaited hlocal]
      exact List.append_nil _
    | service | arrive =>
      refine hc.frame hstep rfl ?_
      rw [driverActions_snoc]
      exact congrArg attempted (List.append_nil _)
    | exchanged a origin seen ending driver hawaited hended hnext =>
      cases a with
      | stop => cases hawaited
      | dispatcher a =>
        refine hc.frame hstep ?_ ?_
        · cases ending <;> rfl
        · rw [driverActions_snoc, Action.ofDriver, Option.toList_some, attempted_snoc]
          exact List.append_nil _
      | worker w a =>
        obtain ⟨pc, q, st, pc', q', st', hpc, -, -, hmove, rfl⟩ := workerStep_cases hnext
        cases hmove with
        | sent k spec started code | sendFailed k spec started exc =>
          obtain ⟨rfl, -⟩ := Prod.mk.inj (Option.some.inj hawaited)
          exact hc.exchanged hended (hrun.fresh hpc)
        | getSlot | getShutdown | choose | record | logException => cases hawaited
  exact hboth.2

end Deployment
end ObservabilityStack
