import ObservabilityStack.AlertSink.Framing
import ObservabilityStack.Lib.Threads

/-!
# Handlers that run at the same time

`ThreadingHTTPServer` gives every connection a thread of its own, and the threads share `STORE` and
the log. A handler works by itself up to the method of the store it calls; that method takes the
lock, once, and holds it while it appends the alerts of a batch one by one, or copies the deque;
what follows, the records of the accepted alerts and the answer, comes after the lock is free
again. Between any two of these steps other threads take theirs.

`doGet` and `doPost` say what a handler does when no other runs. The threads refine them: every
handler answers and logs what it would have if the handlers had run one after the other, in the
order in which they took the lock.

The level of detail is that of what another thread can see. Appending one alert of a batch is a
step of its own, although the lock is held, so that it has to be proved that nobody sees half a
batch. Reading the request and computing the answer are not, since they touch nothing that is
shared.

What is left out is the end of a thread: one that is done stays in the list, with its answer, so
that a state is also a record of what has been answered. Keep-alive is not modelled here either. A
connection that carries several requests is as many threads one after the other.
-/

set_option autoImplicit false

namespace ObservabilityStack
namespace AlertSink

open Python (Json startswith)
open Python.HttpServer
open Transition

/-! ## A handler up to the store

`Plan` splits a handler at the lock. Everything before depends on the request only, and everything
behind on the plan and on what was read under the lock; `alone_effect` says that the two halves
together are the handler as it is written. -/

/-- What a GET asks of the store, on a copy it makes under the lock. -/
inductive Query
  | firing
  | recent
  | len

def Query.payload (s : AlertStore) : Query → Json
  | .firing => alertsPayload s.firing
  | .recent => alertsPayload (s.newestFirst.take 100)
  | .len => .obj [("status", .str "ok"), ("stored", .int s.len)]

/-- What a handler comes to before it calls the store, or instead of that. -/
inductive Plan
  | ask (query : Query)
  | add (alerts : List ReceivedAlert)
  | answer (records : List LogRecord) (response : Response)
  | raise (exc : Escaped)

/-- `do_GET`, up to the store. -/
def planGet (r : Request) : Plan :=
  if startswith r.path "/alerts/firing" then .ask .firing
  else if startswith r.path "/alerts" then .ask .recent
  else if startswith r.path "/healthz" then .ask .len
  else .answer [] ⟨.notFound, errorPayload "no such path"⟩

section Plans

variable [Unicode] (loads : List UInt8 → Except LoadsError Json)

/-- The body has been read. -/
def planAnswer (raw : List UInt8) : Plan :=
  let rejected (message : String) : Plan :=
    .answer [⟨.warning, "rejected notification: " ++ message, []⟩]
      ⟨.badRequest, errorPayload message⟩
  match loads raw with
  | .error (.jsonDecode message) => rejected message
  | .error error => .raise (.loads error)
  | .ok payload =>
      match parseNotification payload with
      | .error message => rejected message
      | .ok alerts => .add alerts

/-- `do_POST`, up to the store. -/
def planPost (r : Request) (rfile : List UInt8) : Plan :=
  if ¬ startswith r.path "/webhook/" then .answer [] ⟨.notFound, errorPayload "no such path"⟩
  else
    let text := r.contentLength.getD "0"
    match Python.int text with
    | none => .raise (.int text)
    | some length =>
        if length ≤ 0 ∨ length > maxBodyBytes then
          .answer [] ⟨.badRequest, errorPayload "missing or oversized body"⟩
        else planAnswer loads (rfile.take length.toNat)

/-- A request, with what stands behind its head. -/
structure Job where
  head : Head
  rfile : List UInt8

def plan (job : Job) : Plan :=
  if job.head.command = "GET" then planGet (Request.ofHead job.head)
  else planPost loads (Request.ofHead job.head) job.rfile

/-- A handler that runs while no other does, on that store. -/
def alone (job : Job) (store : AlertStore) : Except Escaped Unit × Connection :=
  dispatch loads job.head ⟨store, job.rfile, [], []⟩

/-- What is seen of it: how it ends, the store, the answers and the records. -/
structure Effect where
  result : Except Escaped Unit
  store : AlertStore
  responses : List Response
  log : List LogRecord

def Effect.of (r : Except Escaped Unit × Connection) : Effect :=
  ⟨r.1, r.2.store, r.2.wfile, r.2.log⟩

/-- What a plan comes to, on a store that nobody else uses. -/
def Plan.effect (store : AlertStore) : Plan → Effect
  | .ask query => ⟨.ok (), store, [⟨.ok, query.payload store⟩], []⟩
  | .add alerts =>
      ⟨.ok (), (store.addAll alerts).1, [⟨.ok, acceptedPayload alerts.length⟩],
        alerts.map alertRecord⟩
  | .answer records response => ⟨.ok (), store, [response], records⟩
  | .raise exc => ⟨.error exc, store, [], []⟩

omit [Unicode] in
theorem doGet_effect (r : Request) (store : AlertStore) (rfile : List UInt8) :
    Effect.of (doGet r ⟨store, rfile, [], []⟩) = (planGet r).effect store := by
  unfold doGet planGet
  by_cases hfiring : startswith r.path "/alerts/firing" = true
  · rw [if_pos hfiring, if_pos hfiring]
    rfl
  · rw [if_neg hfiring, if_neg hfiring]
    by_cases halerts : startswith r.path "/alerts" = true
    · rw [if_pos halerts, if_pos halerts]
      rfl
    · rw [if_neg halerts, if_neg halerts]
      by_cases hhealthz : startswith r.path "/healthz" = true
      · rw [if_pos hhealthz, if_pos hhealthz]
        rfl
      · rw [if_neg hhealthz, if_neg hhealthz]
        rfl

theorem answer_effect (raw : List UInt8) (store : AlertStore) (rfile : List UInt8) :
    Effect.of (answer loads raw ⟨store, rfile, [], []⟩) = (planAnswer loads raw).effect store := by
  unfold answer planAnswer
  cases hloads : loads raw with
  | error error => cases error <;> rfl
  | ok payload =>
    dsimp only
    cases hparse : parseNotification payload <;> rfl

theorem doPost_effect (r : Request) (store : AlertStore) (rfile : List UInt8) :
    Effect.of (doPost loads r ⟨store, rfile, [], []⟩) =
      (planPost loads r rfile).effect store := by
  unfold doPost planPost
  by_cases hpath : ¬ startswith r.path "/webhook/" = true
  · rw [if_pos hpath, if_pos hpath]
    rfl
  · rw [if_neg hpath, if_neg hpath]
    dsimp only
    cases hint : Python.int (r.contentLength.getD "0") with
    | none => rfl
    | some length =>
      dsimp only
      by_cases hlength : length ≤ 0 ∨ length > maxBodyBytes
      · rw [if_pos hlength, if_pos hlength]
        rfl
      · rw [if_neg hlength, if_neg hlength]
        exact answer_effect loads _ store _

/-- The plan of a handler says what it does when no other runs. -/
theorem alone_effect (job : Job) (store : AlertStore) :
    Effect.of (alone loads job store) = (plan loads job).effect store := by
  unfold alone dispatch plan
  by_cases hget : job.head.command = "GET"
  · rw [if_pos hget, if_pos hget]
    exact doGet_effect _ store job.rfile
  · rw [if_neg hget, if_neg hget]
    exact doPost_effect loads _ store job.rfile

end Plans

/-! ## Threads

The steps are those of any number of threads, in any order; `Anywhere` puts no condition on the
schedule. `next_cases` lists them with what each does to the state, and is all that the proofs
about runs use of `next`. -/

/-- Where a handler is: before its plan, at the store, at the log, or done. -/
inductive Pc
  | start
  /-- in `add_all`, holding the lock, with the alerts that are not appended yet -/
  | adding (alerts rest : List ReceivedAlert)
  /-- in `recent` or `__len__`, holding the lock -/
  | copying (query : Query)
  /-- the records that are not written yet, and the answer that follows them -/
  | logging (rest : List LogRecord) (response : Response)
  | done (outcome : Except Escaped Response)

/-- How the handler ended. -/
def Pc.outcome : Pc → Option (Except Escaped Response)
  | .done outcome => some outcome
  | _ => none

theorem Pc.outcome_eq_some {pc : Pc} {outcome : Except Escaped Response} :
    pc.outcome = some outcome ↔ pc = .done outcome := by
  cases pc <;> simp [Pc.outcome]

/-- What the threads of the server share, and the threads. -/
structure Sink where
  store : AlertStore
  lock : Option ℕ
  /-- the threads that took the lock, in that order; a record for the proofs -/
  order : List ℕ
  /-- the records, each with the thread that wrote it -/
  log : List (ℕ × LogRecord)
  threads : List (Job × Pc)

namespace Sink

/-- The server before its first request. -/
def start (store : AlertStore) : Sink := ⟨store, none, [], [], []⟩

inductive Action
  | arrive (job : Job)
  | step (i : ℕ)

/-- The thread goes on from another place. -/
def setPc (s : Sink) (i : ℕ) (job : Job) (pc : Pc) : Sink :=
  { s with threads := s.threads.set i (job, pc) }

/-- `self._lock.acquire()`, which waits until the lock is free. -/
def acquire (s : Sink) (i : ℕ) : Option Sink :=
  if s.lock = none then some { s with lock := some i, order := s.order ++ [i] } else none

section Next

variable [Unicode] (loads : List UInt8 → Except LoadsError Json)

/-- A thread with a request arrives, or one that is there takes its next step, if it can. -/
def next (s : Sink) : Action → Option Sink
  | .arrive job => some { s with threads := s.threads ++ [(job, .start)] }
  | .step i =>
      match s.threads[i]? with
      | none => none
      | some (job, pc) =>
          match pc with
          | .start =>
              match plan loads job with
              | .ask query => (s.acquire i).map fun s => s.setPc i job (.copying query)
              | .add alerts => (s.acquire i).map fun s => s.setPc i job (.adding alerts alerts)
              | .answer records response => some (s.setPc i job (.logging records response))
              | .raise exc => some (s.setPc i job (.done (.error exc)))
          | .adding alerts (alert :: rest) =>
              some ({ s with store := s.store.append alert }.setPc i job (.adding alerts rest))
          | .adding alerts [] =>
              some ({ s with lock := none }.setPc i job
                (.logging (alerts.map alertRecord) ⟨.ok, acceptedPayload alerts.length⟩))
          | .copying query =>
              some ({ s with lock := none }.setPc i job
                (.logging [] ⟨.ok, query.payload s.store⟩))
          | .logging (record :: rest) response =>
              some ({ s with log := s.log ++ [(i, record)] }.setPc i job (.logging rest response))
          | .logging [] response => some (s.setPc i job (.done (.ok response)))
          | .done _ => none

/-- A run of the server, from a store that nobody uses. -/
def Run (store : AlertStore) (as : List Action) (s : Sink) : Prop :=
  Steps (next loads) Anywhere (start store) as s

end Next

/-- The kinds of step. -/
inductive Stepped [Unicode] (loads : List UInt8 → Except LoadsError Json) (s : Sink) :
    Action → Sink → Prop
  | arrive (job : Job) :
      Stepped loads s (.arrive job) { s with threads := s.threads ++ [(job, .start)] }
  | ask (i : ℕ) (job : Job) (query : Query) (hi : s.threads[i]? = some (job, .start))
      (hplan : plan loads job = .ask query) (hfree : s.lock = none) :
      Stepped loads s (.step i) ({ s with lock := some i, order := s.order ++ [i] }.setPc i job
        (.copying query))
  | add (i : ℕ) (job : Job) (alerts : List ReceivedAlert)
      (hi : s.threads[i]? = some (job, .start)) (hplan : plan loads job = .add alerts)
      (hfree : s.lock = none) :
      Stepped loads s (.step i) ({ s with lock := some i, order := s.order ++ [i] }.setPc i job
        (.adding alerts alerts))
  | answer (i : ℕ) (job : Job) (records : List LogRecord) (response : Response)
      (hi : s.threads[i]? = some (job, .start))
      (hplan : plan loads job = .answer records response) :
      Stepped loads s (.step i) (s.setPc i job (.logging records response))
  | raise (i : ℕ) (job : Job) (exc : Escaped) (hi : s.threads[i]? = some (job, .start))
      (hplan : plan loads job = .raise exc) :
      Stepped loads s (.step i) (s.setPc i job (.done (.error exc)))
  | append (i : ℕ) (job : Job) (alerts : List ReceivedAlert) (alert : ReceivedAlert)
      (rest : List ReceivedAlert)
      (hi : s.threads[i]? = some (job, .adding alerts (alert :: rest))) :
      Stepped loads s (.step i)
        ({ s with store := s.store.append alert }.setPc i job (.adding alerts rest))
  | added (i : ℕ) (job : Job) (alerts : List ReceivedAlert)
      (hi : s.threads[i]? = some (job, .adding alerts [])) :
      Stepped loads s (.step i) ({ s with lock := none }.setPc i job
        (.logging (alerts.map alertRecord) ⟨.ok, acceptedPayload alerts.length⟩))
  | copied (i : ℕ) (job : Job) (query : Query) (hi : s.threads[i]? = some (job, .copying query)) :
      Stepped loads s (.step i) ({ s with lock := none }.setPc i job
        (.logging [] ⟨.ok, query.payload s.store⟩))
  | log (i : ℕ) (job : Job) (record : LogRecord) (rest : List LogRecord) (response : Response)
      (hi : s.threads[i]? = some (job, .logging (record :: rest) response)) :
      Stepped loads s (.step i) ({ s with log := s.log ++ [(i, record)] }.setPc i job
        (.logging rest response))
  | respond (i : ℕ) (job : Job) (response : Response)
      (hi : s.threads[i]? = some (job, .logging [] response)) :
      Stepped loads s (.step i) (s.setPc i job (.done (.ok response)))

theorem acquire_eq_some {s s' : Sink} {i : ℕ} (h : s.acquire i = some s') :
    s.lock = none ∧ s' = { s with lock := some i, order := s.order ++ [i] } := by
  unfold acquire at h
  split at h <;> cases h
  exact ⟨‹_›, rfl⟩

theorem next_cases [Unicode] {loads : List UInt8 → Except LoadsError Json} {s s' : Sink}
    {a : Action} (h : next loads s a = some s') : Stepped loads s a s' := by
  cases a with
  | arrive job =>
    cases h
    exact .arrive job
  | step i =>
    simp only [next] at h
    split at h
    · cases h
    · rename_i job pc hi
      cases pc with
      | start =>
        dsimp only at h
        split at h
        · rename_i query hplan
          obtain ⟨s₁, hacquire, rfl⟩ := Option.map_eq_some_iff.mp h
          obtain ⟨hfree, rfl⟩ := acquire_eq_some hacquire
          exact .ask i job query hi hplan hfree
        · rename_i alerts hplan
          obtain ⟨s₁, hacquire, rfl⟩ := Option.map_eq_some_iff.mp h
          obtain ⟨hfree, rfl⟩ := acquire_eq_some hacquire
          exact .add i job alerts hi hplan hfree
        · rename_i records response hplan
          cases h
          exact .answer i job records response hi hplan
        · rename_i exc hplan
          cases h
          exact .raise i job exc hi hplan
      | adding alerts rest =>
        cases rest with
        | nil =>
          cases h
          exact .added i job alerts hi
        | cons alert rest =>
          cases h
          exact .append i job alerts alert rest hi
      | copying query =>
        cases h
        exact .copied i job query hi
      | logging rest response =>
        cases rest with
        | nil =>
          cases h
          exact .respond i job response hi
        | cons record rest =>
          cases h
          exact .log i job record rest response hi
      | done outcome => cases h

end Sink

/-! ## What a thread knows

A thread at some point of its code has written some of its records, and has decided on an answer or
has not. `Consistent` says which, for every point, in terms of its plan; that it is kept is the one
induction over the steps that is about a thread and not about the lock. -/

/-- The records a plan comes to. -/
def Plan.records : Plan → List LogRecord
  | .ask _ | .raise _ => []
  | .add alerts => alerts.map alertRecord
  | .answer records _ => records

/-- The answer may be the one the plan comes to; the store decides the rest. -/
def Plan.Permits (response : Response) : Plan → Prop
  | .ask _ | .add _ => True
  | .answer _ response' => response = response'
  | .raise _ => False

/-- Where a thread with that plan can be, once it has written those records. -/
def Consistent (p : Plan) (written : List LogRecord) : Pc → Prop
  | .start => written = []
  | .adding alerts _ => p = .add alerts ∧ written = []
  | .copying query => p = .ask query ∧ written = []
  | .logging rest response => p.records = written ++ rest ∧ p.Permits response
  | .done (.ok response) => p.records = written ∧ p.Permits response
  | .done (.error exc) => p = .raise exc ∧ written = []

namespace Sink

/-- The records the thread has written. -/
def written (s : Sink) (i : ℕ) : List LogRecord := (s.log.filter fun e => e.1 = i).map Prod.snd

theorem written_snoc (s : Sink) (i j : ℕ) (record : LogRecord) :
    written { s with log := s.log ++ [(i, record)] } j =
      s.written j ++ if i = j then [record] else [] := by
  unfold written
  rw [List.filter_append, List.map_append]
  by_cases hij : i = j
  · rw [if_pos hij]
    simp [hij]
  · rw [if_neg hij]
    simp [hij]

section Step

variable [Unicode] {loads : List UInt8 → Except LoadsError Json} {s s' : Sink} {a : Action}

structure Kept (loads : List UInt8 → Except LoadsError Json) (s : Sink) : Prop where
  /-- Every thread has written what its place says, and will answer what its plan permits. -/
  threads : ∀ i job pc, s.threads[i]? = some (job, pc) →
    Consistent (plan loads job) (s.written i) pc
  /-- Nobody writes who has not arrived. -/
  writers : ∀ e ∈ s.log, e.1 < s.threads.length

theorem kept_start (store : AlertStore) : Kept loads (start store) :=
  ⟨fun _ _ _ h => (nomatch h), fun _ h => nomatch h⟩

/-- A thread goes on, and writes no record. -/
theorem Kept.setPc (hs : Kept loads s) {i : ℕ} {job : Job} {pc pc' : Pc} {store : AlertStore}
    {lock : Option ℕ} {order : List ℕ} (hi : s.threads[i]? = some (job, pc))
    (hnew : Consistent (plan loads job) (s.written i) pc') :
    Kept loads ({ s with store := store, lock := lock, order := order }.setPc i job pc') where
  threads j job' pc'' hj := by
    have hset : (s.threads.set i (job, pc'))[j]? = some (job', pc'') := hj
    rw [Threads.getElem?_set hi] at hset
    split at hset
    · rename_i hji
      cases hset
      exact hji ▸ hnew
    · exact hs.threads j job' pc'' hset
  writers e he := by
    show e.1 < (s.threads.set i (job, pc')).length
    rw [List.length_set]
    exact hs.writers e he

/-- A thread writes its next record. -/
theorem Kept.log (hs : Kept loads s) {i : ℕ} {job : Job} {record : LogRecord}
    {rest : List LogRecord} {response : Response}
    (hi : s.threads[i]? = some (job, .logging (record :: rest) response)) :
    Kept loads ({ s with log := s.log ++ [(i, record)] }.setPc i job (.logging rest response)) where
  threads j job' pc hj := by
    have hset : (s.threads.set i (job, .logging rest response))[j]? = some (job', pc) := hj
    show Consistent _ (written { s with log := s.log ++ [(i, record)] } j) pc
    rw [written_snoc]
    rw [Threads.getElem?_set hi] at hset
    split at hset
    · rename_i hji
      cases hset
      obtain ⟨hrecords, hpermits⟩ := hs.threads i job _ hi
      subst hji
      refine ⟨?_, hpermits⟩
      rw [if_pos rfl, List.append_assoc]
      exact hrecords
    · rename_i hji
      rw [if_neg (Ne.symm hji), List.append_nil]
      exact hs.threads j job' pc hset
  writers e he := by
    show e.1 < (s.threads.set i _).length
    rw [List.length_set]
    rcases List.mem_append.mp he with he | he
    · exact hs.writers e he
    · rw [List.mem_singleton.mp he]
      exact (List.getElem?_eq_some_iff.mp hi).1

/-- A new thread. -/
theorem Kept.arrive (hs : Kept loads s) (job : Job) :
    Kept loads { s with threads := s.threads ++ [(job, .start)] } where
  threads i job' pc hi := by
    rcases Threads.getElem?_snoc hi with hi | ⟨rfl, hnew⟩
    · exact hs.threads i job' pc hi
    · cases hnew
      show written _ s.threads.length = []
      unfold written
      rw [List.map_eq_nil_iff, List.filter_eq_nil_iff]
      intro e he
      have hlt := hs.writers e he
      simp only [decide_eq_true_eq]
      exact Nat.ne_of_lt hlt
  writers e he := by
    rw [List.length_append]
    exact Nat.lt_add_right _ (hs.writers e he)

theorem Kept.step (hs : Kept loads s) (h : Stepped loads s a s') : Kept loads s' := by
  cases h with
  | arrive job => exact hs.arrive job
  | ask i job query hi hplan => exact hs.setPc hi ⟨hplan, hs.threads i job _ hi⟩
  | add i job alerts hi hplan => exact hs.setPc hi ⟨hplan, hs.threads i job _ hi⟩
  | answer i job records response hi hplan =>
    have hnone : s.written i = [] := hs.threads i job _ hi
    refine hs.setPc hi ⟨?_, ?_⟩
    · rw [hnone, hplan]
      rfl
    · rw [hplan]
      rfl
  | raise i job exc hi hplan => exact hs.setPc hi ⟨hplan, hs.threads i job _ hi⟩
  | append i job alerts alert rest hi =>
    obtain ⟨hplan, hnone⟩ := hs.threads i job _ hi
    exact hs.setPc hi ⟨hplan, hnone⟩
  | added i job alerts hi =>
    obtain ⟨hplan, hnone⟩ := hs.threads i job _ hi
    refine hs.setPc hi ⟨?_, ?_⟩
    · rw [hnone, hplan]
      rfl
    · rw [hplan]
      trivial
  | copied i job query hi =>
    obtain ⟨hplan, hnone⟩ := hs.threads i job _ hi
    refine hs.setPc hi ⟨?_, ?_⟩
    · rw [hnone, hplan]
      rfl
    · rw [hplan]
      trivial
  | log i job record rest response hi => exact hs.log hi
  | respond i job response hi =>
    obtain ⟨hrecords, hpermits⟩ := hs.threads i job _ hi
    exact hs.setPc hi ⟨by rw [hrecords, List.append_nil], hpermits⟩

end Step

end Sink
end AlertSink
end ObservabilityStack
