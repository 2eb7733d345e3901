import Mathlib.Data.List.Perm.Basic
import ObservabilityStack.Deployment.Exchanges
import ObservabilityStack.Loadgen.Catalogue
import ObservabilityStack.Prometheus.ErrorCount
import ObservabilityStack.SampleApp.Accounting

/-!
# The summary of a run and the metrics of the service

Both ends count the same exchanges: the generator by the class of the status it was answered with,
the service by method, path and status when a request leaves its middleware. The service counts a
response before it is sent, so what the summary has of a class is in the metrics, apart from the
requests that got no response, which the generator counts as 5xx. `Balanced` is the account of one
class; what it leaves over on the side of the service is what no worker has read.

The two accounts are kept by different programs with different names for things, and an operator
compares them when an experiment is evaluated: the summary says how many errors the clients saw,
the dashboards how many the service had. The equation says by how much they may differ and why. It
holds in every state, also while requests are under way, and simplifies at the end of a run to the
two terms an operator can account for.

Errors of the network are on the side of the generator only, and those of requests that nobody has
waited for on the side of the service only. Requests of other clients are counted by the service,
and are among what no worker has read.
-/

set_option autoImplicit false

namespace ObservabilityStack
namespace Deployment

open Loadgen (LoadGenerator Stats WorkerPc workerStep_cases)
open SampleApp (App Registry Service ServiceSettings Task Validation)
open Transition

/-! ## Classes of statuses

The generator computes the class by division and the rules select it by an expression on the text
of the status. On the statuses of HTTP these agree. -/

/-- The status label is of the class: `status=~"5.."` for "5xx". -/
def inClass (class_ status : String) : Bool :=
  match status.toList with
  | [digit, _, _] => String.ofList [digit, 'x', 'x'] = class_
  | _ => false

theorem inClass_eq_true {class_ status : String} :
    inClass class_ status = true ↔ ∃ digit c c', status.toList = [digit, c, c'] ∧
      String.ofList [digit, 'x', 'x'] = class_ := by
  unfold inClass
  constructor
  · intro h
    split at h
    · rename_i digit c c' hlist
      exact ⟨digit, c, c', hlist, of_decide_eq_true h⟩
    · cases h
  · intro ⟨digit, c, c', hlist, hclass⟩
    rw [hlist]
    exact decide_eq_true hclass

/-- The class "5xx" is what the rules select. -/
theorem inClass_5xx (status : String) : inClass "5xx" status = Prometheus.matches5xx status := by
  rw [Bool.eq_iff_iff, inClass_eq_true, Prometheus.matches5xx_iff]
  constructor
  · intro ⟨digit, c, c', hlist, hclass⟩
    have hdigit : digit = '5' := (List.cons.inj (String.ofList_injective hclass)).1
    exact ⟨c, c', hdigit ▸ hlist⟩
  · intro ⟨c, c', hlist⟩
    exact ⟨'5', c, c', hlist, rfl⟩

/-- A status of HTTP and its class begin with the same digit. -/
theorem digits {n : ℕ} (hlower : 100 ≤ n) (hupper : n ≤ 599) : ∃ digit c c',
    (toString (n : ℤ)).toList = [digit, c, c'] ∧
      Stats.bucket n = String.ofList [digit, 'x', 'x'] := by
  refine ⟨(n / 10 / 10).digitChar, (n / 10 % 10).digitChar, (n % 10).digitChar, ?_, ?_⟩
  · show (Nat.repr n).toList = _
    rw [Nat.toList_repr, Nat.toDigits_of_base_le (by omega) (show 10 ≤ n by omega),
      Nat.toDigits_of_base_le (by omega) (show 10 ≤ n / 10 by omega),
      Nat.toDigits_of_lt_base (show n / 10 / 10 < 10 by omega)]
    rfl
  · have hdigit : (n : ℤ) / 100 = ((n / 10 / 10 : ℕ) : ℤ) := by omega
    apply String.ext
    show (toString ((n : ℤ) / 100) ++ "xx").toList = _
    rw [hdigit, String.toList_append]
    show (Nat.repr (n / 10 / 10)).toList ++ _ = _
    rw [Nat.toList_repr, Nat.toDigits_of_lt_base (show n / 10 / 10 < 10 by omega)]
    exact String.toList_ofList.symm

theorem inClass_iff {class_ : String} {status : ℤ} (h : 100 ≤ status ∧ status ≤ 599) :
    inClass class_ (toString status) = true ↔ Stats.bucket status = class_ := by
  obtain ⟨n, rfl⟩ := Int.eq_ofNat_of_zero_le (show 0 ≤ status by omega)
  obtain ⟨digit, c, c', hlist, hbucket⟩ := digits (n := n) (by omega) (by omega)
  rw [inClass_eq_true, hbucket]
  constructor
  · intro ⟨digit', d, d', hlist', hclass⟩
    rw [hlist] at hlist'
    cases hlist'
    exact hclass
  · intro hclass
    exact ⟨digit, c, c', hlist, hclass⟩

/-! ## The counter of the service

A sum over label sets on one side, and a count of tasks on the other. -/

/-- `sum(http_requests_total{status=~"5.."})` for "5xx". -/
def requestsIn (r : Registry) (class_ : String) : ℕ :=
  r.requests.sumWhere fun key => inClass class_ key.2.2

/-- The request was counted in the class. -/
def countedIn (class_ : String) (t : Task) : Bool := t.labels.any fun key => inClass class_ key.2.2

theorem requestsIn_observeRequest (r : Registry) (class_ method path : String) (status : ℤ)
    (durationSeconds : ℚ) (traceId : Option String) :
    requestsIn (r.observeRequest method path status durationSeconds traceId) class_ =
      requestsIn r class_ + if inClass class_ (toString status) = true then 1 else 0 := by
  have hset := r.requests.sumWhere_set (fun key => inClass class_ key.2.2)
    (method, path, toString status) (r.requests.getD (method, path, toString status) 0 + 1)
  unfold requestsIn Registry.observeRequest
  dsimp only at hset ⊢
  cases hclass : inClass class_ (toString status) with
  | true =>
    rw [hclass, if_pos rfl, if_pos rfl] at hset
    rw [if_pos rfl]
    omega
  | false =>
    rw [hclass, if_neg Bool.false_ne_true, if_neg Bool.false_ne_true] at hset
    rw [if_neg Bool.false_ne_true]
    omega

theorem requestsIn_eq {sampler : ℚ → ℕ → Bool} {settings : SampleApp.Settings}
    {as : List SampleApp.Action} {s : App} (h : SampleApp.Run sampler settings as s)
    (class_ : String) : requestsIn s.registry class_ = s.tasks.countP (countedIn class_) := by
  refine h.invariant
    (I := fun s => requestsIn s.registry class_ = s.tasks.countP (countedIn class_)) rfl ?_
  intro s a s' hs _ hn
  cases SampleApp.next_cases hn with
  | @entered t hin hpc hspan =>
    have hawaiting : countedIn class_ t = false := by
      unfold countedIn
      rw [Task.labels_awaiting hpc]
      rfl
    show requestsIn s.registry class_ = (s.tasks ++ [t]).countP (countedIn class_)
    rw [List.countP_append, List.countP_singleton, hawaiting, hs]
    rfl
  | @left i t outcome route now ts hin hpc ht =>
    have hawaiting : countedIn class_ t = false := by
      unfold countedIn
      rw [Task.labels_awaiting hpc]
      rfl
    -- The task leaves with a status, and is counted in the class of that status from now on.
    have hleft : countedIn class_ { t with pc := .finished outcome route } =
        inClass class_ (toString outcome.status) := by
      unfold countedIn
      rw [Task.labels_finished outcome route hin]
      rfl
    refine (requestsIn_observeRequest _ class_ _ _ _ _ _).trans ?_
    refine Eq.trans ?_ (SampleApp.countP_left ht hawaiting).symm
    rw [hleft]
    exact congrArg (· + _) hs
  | passed htasks =>
    show requestsIn s.registry class_ = _
    rw [SampleApp.countP_passed ?_ htasks]
    · exact hs
    · intro t hout
      unfold countedIn
      rw [Task.labels_uninstrumented hout]
      rfl

/-! ## The statistics of the generator

A status is known to a worker before it is recorded, under the lock of the statistics. What is
known and not yet recorded is a term of its own. -/

/-- The status of the request is about to be recorded, in the class. -/
def answeredIn (class_ : String) : WorkerPc → Bool
  | .answered _ status _ => Stats.bucket status = class_
  | _ => false

/-- A `send` ends with a status of the class. -/
def endsIn (class_ : String) : Loadgen.Action → Bool
  | .worker _ (.send _ (.status code)) => Stats.bucket code = class_
  | _ => false

/-- What a worker has been answered is recorded, or about to be. -/
theorem recorded_balance {g : LoadGenerator} {d d' : Loadgen.State} {a : Loadgen.Action}
    (hnext : Loadgen.next g d a = some d') (class_ : String) :
    d'.stats.byClass.getD class_ 0 + d'.workers.countP (answeredIn class_) =
      d.stats.byClass.getD class_ 0 + d.workers.countP (answeredIn class_) +
        (endsIn class_ a).toNat := by
  cases a with
  | stop =>
    cases hnext
    rfl
  | dispatcher a =>
    cases Loadgen.dispatcherStep_cases hnext with
    | submit n hpc =>
      rw [List.countP_append]
      rfl
    | readNow now s' hpc hsel =>
      obtain ⟨-, hw, hst, -⟩ := hsel.frame
      rw [hw, hst]
      rfl
    | readStarted | checkStop | armed | armFailed | putNowait | putFull | recordDropped | pace
    | wake | putShutdown | leave | propagate => rfl
  | worker w a =>
    obtain ⟨pc, q, st, pc', q', st', hpc, hq, hst, hmove, rfl⟩ := workerStep_cases hnext
    have hcount := Threads.countP_set (b := pc') (answeredIn class_) hpc
    rw [hst]
    cases hmove with
    -- What the worker carried in its state is in the statistics afterwards.
    | record k code started now q st =>
      rw [Stats.getD_byClass_record]
      simp only [answeredIn, endsIn, Bool.toNat_false] at hcount ⊢
      cases hclass : decide (Stats.bucket code = class_) with
      | true =>
        rw [hclass, Bool.toNat_true] at hcount
        rw [if_pos (of_decide_eq_true hclass)]
        omega
      | false =>
        rw [hclass, Bool.toNat_false] at hcount
        rw [if_neg (of_decide_eq_false hclass)]
        omega
    | getSlot | getShutdown | choose | sent | sendFailed | logException =>
      simp only [answeredIn, endsIn, Bool.toNat_false] at hcount ⊢
      omega

/-! ## Both ends

The account is kept step by step: a step of the service changes what it has counted, and the end of
a `send` changes what has been read and what the generator has, by the same amount. -/

variable {v : Validation} {sampler : ℚ → ℕ → Bool} {settings : ServiceSettings}
  {g : LoadGenerator} {c c' : State} {a : Action} {t : ℚ} {as : List Action}

def Action.isUnanswered : Action → Bool
  | .exchanged (.worker _ (.send _ _)) (.failed _) => true
  | _ => false

/-- The requests without a response, which are recorded as 599. -/
def unanswered (as : List Action) : ℕ := as.countP Action.isUnanswered

/-- The service has counted task `i` in the class. -/
def State.countedAt (c : State) (class_ : String) (i : ℕ) : Bool :=
  c.service.app.tasks[i]?.any (countedIn class_)

/-- What the service has counted in the class and no worker has read. -/
def State.unread (c : State) (as : List Action) (class_ : String) : ℕ :=
  (List.range c.service.app.tasks.length).countP fun i => i ∉ responses as ∧ c.countedAt class_ i

/-- What the generator has of a class is what it has read, and the requests without a response. -/
def Balanced (as : List Action) (c : State) : Prop :=
  ∀ class_, c.driver.stats.byClass.getD class_ 0 +
      c.driver.workers.countP (answeredIn class_) =
    (responses as).countP (c.countedAt class_) + if class_ = "5xx" then unanswered as else 0

theorem unanswered_snoc (as : List Action) (a : Action) :
    unanswered (as ++ [a]) = unanswered as + a.isUnanswered.toNat := by
  cases h : a.isUnanswered <;> simp [unanswered, h]

/-- The service has counted what it answers. -/
theorem Honest.countedAt (hc : Honest g c) {i k : ℕ} {task : Task} {outcome : SampleApp.Outcome}
    {route : String} {seen : Loadgen.Outcome} (horigin : c.origins[i]? = some (.slot k))
    (htask : c.service.app.tasks[i]? = some task) (hpc : task.pc = .finished outcome route)
    (hreply : reply outcome = some seen) (class_ : String) :
    c.countedAt class_ i = decide (Stats.bucket seen.code = class_) := by
  obtain ⟨hcode, hstatus⟩ := reply_eq_some hreply
  have hin := (hc.expected horigin htask).instrumented
  have hlabels : task.labels = some (task.request.method, route, toString outcome.status) := by
    unfold Task.labels
    rw [hpc]
    exact if_pos hin
  rw [Bool.eq_iff_iff, decide_eq_true_iff, hcode, ← inClass_iff hstatus]
  unfold State.countedAt countedIn
  rw [htask, Option.any_some, hlabels, Option.any_some]

theorem exists_of_countedAt {class_ : String} {i : ℕ} (h : c.countedAt class_ i = true) :
    ∃ task, c.service.app.tasks[i]? = some task ∧ task.request.instrumented = true := by
  unfold State.countedAt at h
  cases htask : c.service.app.tasks[i]? with
  | none =>
    rw [htask] at h
    cases h
  | some task =>
    rw [htask, Option.any_some] at h
    refine ⟨task, rfl, ?_⟩
    by_contra hout
    unfold countedIn at h
    rw [Task.labels_uninstrumented (Bool.eq_false_of_not_eq_true hout)] at h
    cases h

/-- A step of the service changes nothing of what has been read. -/
theorem countP_responses (hread : Read as c) (h : Stepped v sampler settings g c a c')
    (class_ : String) : (responses as).countP (c'.countedAt class_) =
      (responses as).countP (c.countedAt class_) := by
  refine List.countP_congr fun i hi => ?_
  obtain ⟨k, -, horigin, task, outcome, route, seen, htask, hpc, hreply⟩ := hread.answers i hi
  unfold State.countedAt
  rw [h.finished htask hpc, htask]

theorem endsIn_of_awaited {a : Loadgen.Action} {n : ℕ} (h : awaited n a = none) (class_ : String) :
    endsIn class_ a = false := by
  cases a with
  | stop | dispatcher => rfl
  | worker w a =>
    cases a with
    | send => cases h
    | getSlot | getShutdown | choose | record | logException => rfl

/-- A status that a worker gets is that of the response it reads, or the one for no response. -/
theorem ended_balance (hhonest : Honest g c) {w k : ℕ} {ending : Ending}
    {seen : Except String Loadgen.Outcome} {result : Loadgen.SendResult}
    (hresult : result = Loadgen.UrllibTransport.send seen)
    (hended : c.ended (.slot k) ending = some seen) (class_ : String) :
    (endsIn class_ (.worker w (.send k result))).toNat =
      (Action.response? (.exchanged (.worker w (.send k result)) ending)).toList.countP
          (c.countedAt class_) +
        if class_ = "5xx" then
          (Action.isUnanswered (.exchanged (.worker w (.send k result)) ending)).toNat
        else 0 := by
  subst hresult
  cases ending with
  -- The status the client reads is the one the task left with.
  | response i =>
    obtain ⟨horigin, task, outcome, route, seen', htask, hpc, hreply, rfl⟩ :=
      ended_response hended
    have hat := hhonest.countedAt horigin htask hpc hreply class_
    simp only [endsIn, Loadgen.UrllibTransport.send, Action.response?, Action.isUnanswered,
      Option.toList_some, List.countP_singleton, hat, Bool.toNat_false, ite_self, Nat.add_zero]
    cases decide (Stats.bucket seen'.code = class_) <;> rfl
  | failed reason =>
    cases hended
    -- A transport failure is recorded as 599, hence in the class 5xx.
    have h5xx : Stats.bucket Loadgen.transportFailureStatus = "5xx" := by decide
    simp only [endsIn, Loadgen.UrllibTransport.send, Loadgen.Outcome.code, h5xx, Action.response?,
      Action.isUnanswered, Option.toList_none, List.countP_nil, Bool.toNat_true, Nat.zero_add]
    by_cases hclass : class_ = "5xx"
    · rw [if_pos hclass, decide_eq_true hclass.symm, Bool.toNat_true]
    · rw [if_neg hclass, decide_eq_false (Ne.symm hclass), Bool.toNat_false]
  | raised exc =>
    cases hended
    simp only [endsIn, Loadgen.UrllibTransport.send, Action.response?, Action.isUnanswered,
      Option.toList_none, List.countP_nil, Bool.toNat_false, ite_self, Nat.add_zero]

/-- What a step adds to the statistics is what it reads, or a request without a response. -/
theorem Stepped.balance (hhonest : Honest g c) (h : Stepped v sampler settings g c a c')
    (class_ : String) :
    c'.driver.stats.byClass.getD class_ 0 + c'.driver.workers.countP (answeredIn class_) =
      c.driver.stats.byClass.getD class_ 0 + c.driver.workers.countP (answeredIn class_) +
        (a.response?.toList.countP (c'.countedAt class_) +
          if class_ = "5xx" then a.isUnanswered.toNat else 0) := by
  cases h with
  | driver a driver hlocal hnext =>
    have hbalance := recorded_balance hnext class_
    rw [endsIn_of_awaited hlocal] at hbalance
    simpa [Action.response?, Action.isUnanswered] using hbalance
  | service | arrive => simp [Action.response?, Action.isUnanswered]
  | exchanged a origin seen ending driver hawaited hended hnext =>
    have hbalance := recorded_balance hnext class_
    cases a with
    | stop => cases hawaited
    | dispatcher a =>
      cases ending <;> simpa [endsIn, Action.response?, Action.isUnanswered] using hbalance
    | worker w a =>
      cases a with
      | send k result =>
        obtain ⟨rfl, hresult⟩ := Prod.mk.inj (Option.some.inj hawaited)
        rw [ended_balance hhonest hresult hended class_] at hbalance
        exact hbalance
      | getSlot | getShutdown | choose | record | logException => cases hawaited

theorem Balanced.step (hc : Balanced as c) (hhonest : Honest g c) (hread : Read as c)
    (h : Stepped v sampler settings g c a c') : Balanced (as ++ [a]) c' := by
  intro class_
  have hclass := hc class_
  have hbalance := h.balance hhonest class_
  rw [responses_snoc, unanswered_snoc, List.countP_append, countP_responses hread h class_]
  split at hclass
  · rename_i h5xx
    rw [if_pos h5xx] at hbalance ⊢
    omega
  · rename_i hother
    rw [if_neg hother] at hbalance ⊢
    omega

theorem Run.balanced (h : Run v sampler settings g t as c) : Balanced as c := by
  have hboth : Run v sampler settings g t as c ∧ Balanced as c := by
    refine h.invariant_trace (I := fun as c => Run v sampler settings g t as c ∧ Balanced as c)
      ⟨.refl, fun class_ => ?_⟩ ?_
    · split <;> rfl
    · rintro as c a c' ⟨hrun, hc⟩ _ hn
      exact ⟨.snoc hrun trivial hn, hc.step hrun.honest hrun.read (next_cases hn)⟩
  exact hboth.2

/-- What the service has counted is read, or not. -/
theorem countP_countedIn (hread : Read as c) (class_ : String) :
    c.service.app.tasks.countP (countedIn class_) =
      (responses as).countP (c.countedAt class_) + c.unread as class_ := by
  rw [← Threads.countP_range]
  refine Threads.countP_range_split hread.nodup ?_ _
  intro i hi
  obtain ⟨k, -, -, task, outcome, route, seen, htask, -⟩ := hread.answers i hi
  exact (List.getElem?_eq_some_iff.mp htask).1

/-- A request of the generator that the service has counted was read, or its `send` had no
    response, once the run of the generator is over. -/
theorem Run.settled (h : Run v sampler settings g t as c) (hpc : c.driver.pc = .returned)
    {i k : ℕ} (horigin : c.origins[i]? = some (.slot k)) : k ∈ broken as ∨ i ∈ responses as := by
  have hall := h.driver.inv.ended (by rw [hpc]; rfl)
  have hidle : (c.driver.workers.map (sending k)).sum = 0 := by
    refine List.sum_eq_zero ?_
    intro n hn
    obtain ⟨w, hw, rfl⟩ := List.mem_map.mp hn
    rw [hall w hw]
    rfl
  have hsent := h.sent k
  have hpos : 0 < c.origins.count (.slot k) :=
    List.count_pos_iff.mpr (List.mem_of_getElem? horigin)
  have hattempted : k ∈ Loadgen.attempted (driverActions as) := by
    rw [← List.count_pos_iff]
    omega
  rcases h.read.ended k hattempted with hbroken | ⟨j, hj, hanswers⟩
  · exact Or.inl hbroken
  · exact Or.inr (h.slot_unique horigin hanswers.1 ▸ hj)

/-- **The summary agrees with the metrics.** No response is read twice. In every reachable state and
    for every class, what the generator has recorded or is about to record is what the service has
    counted, apart from the responses no worker has read and the requests without a response, which
    are taken for 5xx. When the run is over, every request had a response and everybody else kept
    to the endpoints that are not instrumented, the two counts are the same. -/
theorem summary_agrees_with_metrics (h : Run v sampler settings g t as c) :
    (responses as).Nodup ∧
    (∀ class_, c.driver.stats.byClass.getD class_ 0 + c.driver.workers.countP (answeredIn class_) +
        c.unread as class_ =
      requestsIn c.service.app.registry class_ + if class_ = "5xx" then unanswered as else 0) ∧
    (c.driver.pc = .returned → broken as = [] →
      (∀ (i : ℕ) (task : Task), c.origins[i]? = some .other →
        c.service.app.tasks[i]? = some task → task.request.instrumented = false) →
      ∀ class_, c.driver.stats.byClass.getD class_ 0 =
        requestsIn c.service.app.registry class_) := by
  obtain ⟨-, bs, happ⟩ := h.service.app
  have hequation : ∀ class_, c.driver.stats.byClass.getD class_ 0 +
      c.driver.workers.countP (answeredIn class_) + c.unread as class_ =
        requestsIn c.service.app.registry class_ +
          if class_ = "5xx" then unanswered as else 0 := by
    intro class_
    have hbalanced := h.balanced class_
    rw [requestsIn_eq happ, countP_countedIn h.read]
    omega
  refine ⟨h.read.nodup, hequation, ?_⟩
  intro hpc hbroken hothers class_
  have hall := h.driver.inv.ended (by rw [hpc]; rfl)
  -- After the pool has gone no worker holds a status that is not recorded.
  have hidle : c.driver.workers.countP (answeredIn class_) = 0 := by
    rw [List.countP_eq_zero]
    intro w hw
    rw [hall w hw]
    exact Bool.false_ne_true
  -- Every counted request was sent by the generator, and its response was read.
  have hunread : c.unread as class_ = 0 := by
    unfold State.unread
    rw [List.countP_eq_zero]
    intro i hi hunread
    obtain ⟨hnot, hcounted⟩ := of_decide_eq_true hunread
    obtain ⟨task, htask, hin⟩ := exists_of_countedAt hcounted
    have hlt : i < c.origins.length := by
      rw [h.honest.aligned]
      exact (List.getElem?_eq_some_iff.mp htask).1
    obtain ⟨origin, horigin⟩ : ∃ origin, c.origins[i]? = some origin :=
      ⟨_, List.getElem?_eq_getElem hlt⟩
    have hexpected := h.honest.expected horigin htask
    cases origin with
    | slot k =>
      rcases h.settled hpc horigin with hbroke | hread
      · rw [hbroken] at hbroke
        cases hbroke
      · exact hnot hread
    | arm n fault => exact absurd hin (by rw [hexpected.uninstrumented]; exact Bool.false_ne_true)
    | other => exact absurd hin (by rw [hothers i task horigin htask]; exact Bool.false_ne_true)
  have hunanswered : unanswered as = 0 := by
    unfold unanswered
    rw [List.countP_eq_zero]
    intro a ha hunanswered
    have hnone := List.filterMap_eq_nil_iff.mp hbroken a ha
    unfold Action.isUnanswered at hunanswered
    split at hunanswered
    · cases hnone
    · cases hunanswered
  have hsame := hequation class_
  rw [hidle, hunread, hunanswered, ite_self] at hsame
  exact hsame

/-- One request, which is answered while the run is being stopped. -/
def calmGenerator : LoadGenerator := ⟨"http://svc", .normal, 1, Nat.one_pos⟩

def calmRun : List Action :=
  [.driver (.dispatcher (.readStarted 5)), .driver (.dispatcher .submit),
   .driver (.dispatcher .checkStop), .driver (.dispatcher (.readNow 5)),
   .driver (.dispatcher (.putNowait 0)), .driver (.worker 0 (.getSlot 0)),
   .driver (.dispatcher (.pace 5)), .driver (.worker 0 (.choose ⟨"GET", "/api/items", none⟩ 5)),
   .arrive (.slot 0) ⟨"GET", "/api/items"⟩ 1 1,
   .service (.call 0 (.api (.listItems 10)) Service.lowest Service.lowest), .service (.elapse 1),
   .service (.wake 0 Service.lowest Service.lowest), .driver .stop, .driver (.dispatcher .wake),
   .service (.leave 0 false "t"), .driver (.dispatcher .checkStop),
   .driver (.dispatcher .putShutdown), .exchanged (.worker 0 (.send 0 (.status 200))) (.response 0),
   .driver (.worker 0 (.record 6)), .driver (.worker 0 .getShutdown),
   .driver (.dispatcher .exitPool)]

theorem calmRun_runs :
    (exec (next .declared (fun _ _ => true) Service.defaults calmGenerator) (.init 0)
      calmRun).isSome := by
  decide +kernel

def calmEnd : State :=
  (exec (next .declared (fun _ _ => true) Service.defaults calmGenerator) (.init 0) calmRun).get
    calmRun_runs

theorem run_calmRun :
    Run .declared (fun _ _ => true) Service.defaults calmGenerator 0 calmRun calmEnd :=
  steps_of_exec (Option.some_get calmRun_runs).symm

theorem origins_calmEnd : calmEnd.origins = [.slot 0] := by decide +kernel

theorem summary_agrees_with_metrics_calm :
    calmEnd.driver.stats.byClass.getD "2xx" 0 = requestsIn calmEnd.service.app.registry "2xx" ∧
      requestsIn calmEnd.service.app.registry "2xx" = 1 := by
  refine ⟨(summary_agrees_with_metrics run_calmRun).2.2 (by decide +kernel) (by decide) ?_ "2xx",
    ?_⟩
  · intro i task hother
    rw [origins_calmEnd] at hother
    exact absurd (List.mem_of_getElem? hother) (by decide)
  · decide +kernel

end Deployment
end ObservabilityStack
