import ObservabilityStack.SampleApp.Accounting
import ObservabilityStack.SampleApp.Service

/-!
# Where the server errors come from

The calls the injector gets in a run are read off its actions (`faultEvents`), so what is in force
at a moment is what `Faults` says about that history. The endpoints themselves never answer with a
server error: a status of 500 or more is that of an error fault which was in force when
`apply_faults` asked for it, or the request was cancelled, or its handler crashed.

A request asks once, when it comes out of its sleep: that is the action `wake` of its number, and
a run has at most one of them for each. So `Injected` speaks of that action: the fault is the one
that the calls before it had left in force, and that its draw hit. What was in force when the
request came in, or when it left, is beside the point. Errors and latency are drawn at different
moments, before and after the sleep, and a fault may come or go between them.
-/

set_option autoImplicit false

namespace ObservabilityStack
namespace SampleApp
namespace Service

open Transition

/-! ## The history of the injector

From the actions of the service to the calls of the injector, in order, so that the results about
histories apply to runs. -/

/-- The call of the injector that changes it. -/
def Action.faultEvent (now : ℚ) : Action → Option Event
  | .call _ (.setLatencyFault payload) _ _ =>
      some ⟨now, .injectLatency payload.delayMs payload.jitterMs payload.ttlSeconds⟩
  | .call _ (.setErrorFault payload) _ _ =>
      some ⟨now, .injectErrors payload.ratio payload.statusCode payload.ttlSeconds⟩
  | .call _ .clearFaults _ _ => some ⟨now, .clear⟩
  | _ => none

/-- The calls in a run that starts at `t`. -/
def faultEvents (t : ℚ) (as : List Action) : List Event :=
  stamped (fun now a => a.faultEvent now) t as

theorem faultEvents_snoc (t : ℚ) (as : List Action) (a : Action) :
    faultEvents t (as ++ [a]) = faultEvents t as ++ (a.faultEvent (clock t as)).toList :=
  stamped_snoc _ t as a

/-- An endpoint leaves the injector as the call it makes of it does. -/
theorem called_faults (s : Service) (i : ℕ) (baseLatencySeconds : ℚ) (base injected : Draw)
    (endpoint : Endpoint) :
    (s.called baseLatencySeconds base injected endpoint).2 =
      ((Action.call i endpoint base injected).faultEvent s.time).toList.foldl
        FaultInjector.apply s.faults := by
  cases endpoint with
  | setLatencyFault payload =>
    simp only [called, setLatencyFault, Action.faultEvent, Option.toList_some, List.foldl_cons,
      List.foldl_nil, FaultInjector.apply]
    split <;> simp_all
  | setErrorFault payload =>
    simp only [called, setErrorFault, Action.faultEvent, Option.toList_some, List.foldl_cons,
      List.foldl_nil, FaultInjector.apply]
    split <;> simp_all
  | metrics | healthz | readyz | api | readFaults | clearFaults | other => rfl

/-! ## Server errors

By the way a task has ended. Each endpoint has finitely many statuses of its own, and none of them
is 500 or more. -/

/-- When the request number `i` drew its error, a fault of that status was in force, injected by an
    accepted call, neither cleared nor replaced since, and not expired; and the draw hit it. -/
def Injected (t : ℚ) (as : List Action) (i : ℕ) (status : ℤ) : Prop :=
  ∃ before error reserve fault, before ++ [.wake i error reserve] <+: as ∧
    LastInjected Event.InjectsErrors (faultEvents t before) fault ∧
    clock t before < fault.expiresAt ∧ error.value < fault.ratio ∧ fault.statusCode = status

theorem Injected.append {t : ℚ} {as : List Action} {i : ℕ} {status : ℤ}
    (h : Injected t as i status) (bs : List Action) : Injected t (as ++ bs) i status := by
  obtain ⟨before, error, reserve, fault, hpre, hfault⟩ := h
  exact ⟨before, error, reserve, fault, hpre.trans (List.prefix_append as bs), hfault⟩

theorem setErrorFault_of_faultEvent {a : Action} {now : ℚ} {e : Event} {fault : ErrorFault}
    (he : a.faultEvent now = some e) (hinjects : e.InjectsErrors fault) :
    ∃ i payload base injected, a = .call i (.setErrorFault payload) base injected ∧
      fault.ratio = payload.ratio ∧ fault.statusCode = payload.statusCode ∧
      fault.expiresAt = now + payload.ttlSeconds := by
  obtain ⟨ttlSeconds, hcall, -, hexpires⟩ := hinjects
  unfold Action.faultEvent at he
  split at he
  · cases he
    cases hcall
  · rename_i i payload base injected
    cases he
    obtain ⟨hratio, hstatus, httl⟩ := Call.injectErrors.inj hcall
    exact ⟨i, payload, base, injected, rfl, hratio.symm, hstatus.symm, httl ▸ hexpires⟩
  · cases he
    cases hcall
  · cases he

/-- When `before` is over, what the call of `POST /faults/errors` in request `j` has armed is in
    force: no call since then has cleared or replaced it, and its time is not up. -/
def ArmedBy (t : ℚ) (before : List Action) (j : ℕ) (payload : ErrorFaultRequest) : Prop :=
  ∃ earlier base injected later,
    before = earlier ++ .call j (.setErrorFault payload) base injected :: later ∧
    (∀ e ∈ faultEvents
        (clock t (earlier ++ [.call j (.setErrorFault payload) base injected])) later,
      e.call ≠ .clear ∧ ∀ fault, ¬ e.InjectsErrors fault) ∧
    clock t before < clock t earlier + payload.ttlSeconds

theorem ArmedBy.mem {t : ℚ} {before : List Action} {j : ℕ} {payload : ErrorFaultRequest}
    (h : ArmedBy t before j payload) :
    ∃ base injected, .call j (.setErrorFault payload) base injected ∈ before := by
  obtain ⟨earlier, base, injected, later, rfl, -, -⟩ := h
  exact ⟨base, injected, List.mem_append_right earlier List.mem_cons_self⟩

/-- A fault in force has been armed by a request. -/
theorem armedBy_of_lastInjected {t : ℚ} {before : List Action} {fault : ErrorFault}
    (h : LastInjected Event.InjectsErrors (faultEvents t before) fault)
    (hexpires : clock t before < fault.expiresAt) :
    ∃ j payload, ArmedBy t before j payload ∧ fault.ratio = payload.ratio ∧
      fault.statusCode = payload.statusCode := by
  obtain ⟨_, e, after, heq, hinjects, hquiet⟩ := h
  obtain ⟨earlier, a, later, hbefore, he, hlater⟩ := stamped_split heq
  obtain ⟨j, payload, base, injected, rfl, hratio, hstatus, hdue⟩ :=
    setErrorFault_of_faultEvent he hinjects
  rw [← hlater] at hquiet
  exact ⟨j, payload, ⟨earlier, base, injected, later, hbefore, hquiet, hdue ▸ hexpires⟩, hratio,
    hstatus⟩

/-- The status codes of the API are integers. -/
theorem statusCode_of_lastInjected {t : ℚ} {as : List Action} {fault : ErrorFault}
    (h : LastInjected Event.InjectsErrors (faultEvents t as) fault) :
    (fault.statusCode.num : ℚ) = fault.statusCode := by
  obtain ⟨_, e, _, heq, hinjects, _⟩ := h
  obtain ⟨_, a, _, _, he, _⟩ := stamped_split heq
  obtain ⟨_, payload, _, _, _, _, hstatus, _⟩ := setErrorFault_of_faultEvent he hinjects
  rw [hstatus, Rat.num_intCast]

/-- The endpoints that are called without `apply_faults` answer no server error. -/
theorem status_of_called {s : Service} {baseLatencySeconds : ℚ} {base injected : Draw}
    {endpoint : Endpoint} {answer : Answer}
    (h : (s.called baseLatencySeconds base injected endpoint).1 = .answered answer) :
    answer.status < 500 := by
  cases endpoint with
  | metrics | healthz | readyz | readFaults | clearFaults =>
    cases h
    exact (by decide : (200 : ℤ) < 500)
  | api api => cases h
  | setLatencyFault payload =>
    simp only [called, setLatencyFault] at h
    split at h <;> cases h <;> simp [Answer.of, Except.map]
  | setErrorFault payload =>
    simp only [called, setErrorFault] at h
    split at h <;> cases h <;> simp [Answer.of, Except.map]
  | other pathFormat status hlt hrefused =>
    cases h
    exact hlt

theorem status_of_respond {api : Api} {now : ℚ} {reserve : Draw} {answer : Answer}
    (h : api.respond now reserve = .answered answer) : answer.status < 500 := by
  cases api with
  | listItems limit =>
    cases h
    unfold SampleApp.listItems
    split <;> simp [Answer.of, Except.map]
  | getItem itemId =>
    cases h
    unfold SampleApp.getItem
    split <;> simp [Answer.of, Except.map]
  | createOrder payload =>
    simp only [Api.respond, lookup] at h
    split at h
    · rename_i exc hexc
      split at hexc <;> cases hexc
      cases h
      simp [Answer.of]
    · cases h
  | invalid pathFormat =>
    cases h
    exact (by decide : (422 : ℤ) < 500)

/-- Who is to blame for a server error. -/
structure Blamed (t : ℚ) (as : List Action) (s : Service) : Prop where
  /-- The injector has seen the calls of this run. -/
  faults : s.faults = FaultInjector.run (faultEvents t as)
  /-- A handler that has answered with a server error had it injected… -/
  handlers : ∀ i h, s.handlers[i]? = some h → ∀ answer, h.pc = .answered answer →
    500 ≤ answer.status → Injected t as i answer.status
  /-- …and so had a task that has left with one. -/
  tasks : ∀ i task, s.app.tasks[i]? = some task → ∀ status route,
    task.pc = .finished (.response status) route → 500 ≤ status → Injected t as i status

theorem blamed_init (t : ℚ) : Blamed t [] (.init t) where
  faults := rfl
  handlers _ _ h := nomatch h
  tasks _ _ h := nomatch h

/-- The status `apply_faults` raises is one that was injected. -/
theorem Blamed.injected {t : ℚ} {as : List Action} {s : Service} (hs : Blamed t as s)
    (htime : s.time = clock t as) {api : Api} {error reserve : Draw} {answer : Answer} (i : ℕ)
    (h : api.wake s.faults s.time error reserve = .answered answer)
    (hstatus : 500 ≤ answer.status) :
    Injected t (as ++ [.wake i error reserve]) i answer.status := by
  unfold Api.wake at h
  split at h
  · rename_i status hdraw
    cases h
    obtain ⟨fault, hfault, hhit, rfl⟩ := FaultInjector.nextErrorStatus_eq_some.mp hdraw
    rw [hs.faults, htime] at hfault
    obtain ⟨hlast, hexp⟩ := FaultInjector.state_errors_run.mp hfault
    exact ⟨as, error, reserve, fault, List.prefix_refl _, hlast, hexp, hhit,
      (statusCode_of_lastInjected hlast).symm⟩
  · exact absurd hstatus (not_le.mpr (status_of_respond h))

section Step

variable {sampler : ℚ → ℕ → Bool} {settings : ServiceSettings} {t : ℚ} {as : List Action}
  {s s' : Service} {a : Action}

/-- A step that moves one handler, and no task. -/
theorem Blamed.handled {i : ℕ} {h : Handler} {orders : ℕ} {faults : FaultInjector}
    (hs : Blamed t as s)
    (hfaults : faults = (a.faultEvent s.time).toList.foldl FaultInjector.apply s.faults)
    (htime : s.time = clock t as)
    (hanswer : ∀ answer, h.pc = .answered answer → 500 ≤ answer.status →
      Injected t (as ++ [a]) i answer.status) :
    Blamed t (as ++ [a])
      ({ s with faults := faults, ordersCreated := orders }.setHandler i h) where
  faults := by
    show faults = _
    rw [hfaults, faultEvents_snoc, FaultInjector.run, List.foldl_append, ← htime, hs.faults,
      FaultInjector.run]
  handlers j h' hj answer hpc hstatus := by
    change (s.handlers.set i h)[j]? = some h' at hj
    rw [List.getElem?_set] at hj
    split at hj
    · rename_i heq
      subst heq
      split at hj <;> cases hj
      exact hanswer answer hpc hstatus
    · exact (hs.handlers j h' hj answer hpc hstatus).append [a]
  tasks j task hj status route hpc hstatus :=
    (hs.tasks j task hj status route hpc hstatus).append [a]

/-- A step that leaves the injector alone. -/
theorem Blamed.faults_snoc (hs : Blamed t as s) (hquiet : a.faultEvent (clock t as) = none) :
    s.faults = FaultInjector.run (faultEvents t (as ++ [a])) := by
  rw [faultEvents_snoc, hquiet, Option.toList_none, List.append_nil]
  exact hs.faults

theorem Blamed.step (hs : Blamed t as s) (htime : s.time = clock t as)
    (h : Stepped sampler settings s a s') : Blamed t (as ++ [a]) s' := by
  cases h with
  | elapse seconds hpos =>
    refine ⟨hs.faults_snoc rfl, ?_, ?_⟩
    · exact fun i h hi answer hpc hstatus => (hs.handlers i h hi answer hpc hstatus).append _
    · exact fun i task hi status route hpc hstatus =>
        (hs.tasks i task hi status route hpc hstatus).append _
  | enter request traceId spanId =>
    refine ⟨hs.faults_snoc rfl, ?_, ?_⟩
    · intro i h hi answer hpc hstatus
      rcases Threads.getElem?_snoc hi with hold | ⟨-, rfl⟩
      · exact (hs.handlers i h hold answer hpc hstatus).append _
      · cases hpc
    · intro i task hi status route hpc hstatus
      obtain ⟨span, htasks⟩ :=
        enter_tasks sampler settings.toSettings s.app request s.time traceId spanId
      rw [htasks] at hi
      rcases Threads.getElem?_snoc hi with hold | ⟨-, rfl⟩
      · exact (hs.tasks i task hold status route hpc hstatus).append _
      · cases hpc
  | call i task pathFormat endpoint base injected hat hserves =>
    exact hs.handled (called_faults s i _ base injected endpoint) htime
      fun answer hpc hstatus => absurd hstatus (not_le.mpr (status_of_called hpc))
  | wake i task pathFormat api due error reserve hat hdue =>
    exact hs.handled rfl htime fun answer hpc hstatus => hs.injected htime i hpc hstatus
  | reserved i task pathFormat payload item due orderId hat hdue =>
    refine hs.handled rfl htime fun answer hpc hstatus => ?_
    cases hpc
    exact absurd hstatus (by decide : ¬ (500 : ℤ) ≤ 201)
  | crash i task h text hat hover => exact hs.handled rfl htime fun answer hpc => nomatch hpc
  | leave i task h cancelled ts outcome hat hout =>
    obtain ⟨htask, hh, -⟩ := awaiting_eq_some.mp hat
    refine ⟨hs.faults_snoc rfl, ?_, ?_⟩
    · exact fun j h hj answer hpc hstatus => (hs.handlers j h hj answer hpc hstatus).append _
    · intro j task' hj status route hpc hstatus
      rw [departed_tasks, List.getElem?_set] at hj
      split at hj
      · rename_i heq
        subst heq
        split at hj <;> cases hj
        -- The status is that of the answer the handler has given.
        cases hpc
        unfold HandlerPc.outcome at hout
        split at hout
        · cases hout
        · split at hout <;> cases hout
          rename_i answer hpc
          exact (hs.handlers i h hh answer hpc hstatus).append _
      · exact (hs.tasks j task' hj status route hpc hstatus).append _

theorem Run.blamed (h : Run sampler settings t as s) : Blamed t as s ∧ s.time = clock t as :=
  invariant_clock h (blamed_init t) fun _ _ _ _ hs htime hstep => hs.step htime hstep

end Step

/-- **A server error has a cause.** A request that is counted with a status of 500 or more was
    cancelled, or its handler crashed, or an error fault with that status was in force when the
    request drew its error; and when no fault of that kind is ever injected and every request is
    answered, none is counted. -/
theorem server_errors_are_injected {sampler : ℚ → ℕ → Bool} {settings : ServiceSettings} {t : ℚ}
    {as : List Action} {s : Service} (h : Run sampler settings t as s) :
    (∀ i task, s.app.tasks[i]? = some task → ∀ outcome route,
      task.pc = .finished outcome route → 500 ≤ outcome.status →
      outcome = .cancelled ∨ (∃ text, outcome = .exception text) ∨
        Injected t as i outcome.status) ∧
    ((∀ e ∈ faultEvents t as, ∀ fault, ¬ e.InjectsErrors fault) →
      (∀ task ∈ s.app.tasks, ∀ outcome route, task.pc = .finished outcome route →
        ∃ status, outcome = .response status) →
      ∀ method path, ∀ status : ℤ, 500 ≤ status →
        s.app.registry.requests.getD (method, path, toString status) 0 = 0) := by
  obtain ⟨hblamed, -⟩ := h.blamed
  refine ⟨?_, ?_⟩
  · intro i task hi outcome route hpc hstatus
    cases outcome with
    | response status => exact Or.inr (Or.inr (hblamed.tasks i task hi status route hpc hstatus))
    | exception text => exact Or.inr (Or.inl ⟨text, rfl⟩)
    | cancelled => exact Or.inl rfl
  · intro hnone hanswered method path status hstatus
    obtain ⟨-, bs, hrun⟩ := h.app
    rw [hrun.accounted.requests, List.countP_eq_zero]
    intro task htask hleft
    have hlabels : task.labels = some (method, path, toString status) := of_decide_eq_true hleft
    unfold Task.labels at hlabels
    split at hlabels
    · cases hlabels
    · rename_i outcome route hpc
      split at hlabels
      · obtain ⟨answered, rfl⟩ := hanswered task htask outcome route hpc
        -- Two statuses with one label are one status.
        have heq : answered = status := by
          simp only [Option.some.injEq, Prod.mk.injEq] at hlabels
          exact Python.intToString_injective hlabels.2.2
        obtain ⟨i, hi⟩ := List.mem_iff_getElem?.mp htask
        obtain ⟨before, _, _, fault, hpre, ⟨bef, e, aft, hevents, hinj, -⟩, -⟩ :=
          hblamed.tasks i task hi answered route hpc (heq ▸ hstatus)
        -- The injection that is to blame is a call of this run, and there is none.
        obtain ⟨after, rfl⟩ := hpre
        refine hnone e ?_ fault hinj
        rw [faultEvents, stamped_append, stamped_append, ← faultEvents, hevents]
        simp
      · cases hlabels

/-- All requests are to fail for a minute, and one is made. -/
def failingRun : List Action :=
  [.enter ⟨"POST", "/faults/errors"⟩ 1 1,
   .call 0 (.setErrorFault ⟨1, 503, 60, by decide +kernel, by decide, by decide⟩) lowest lowest,
   .enter ⟨"GET", "/api/items"⟩ 2 2, .call 1 (.api (.listItems 10)) lowest lowest, .elapse 1,
   .wake 1 lowest lowest, .leave 1 false "t"]

theorem failingRun_runs :
    (exec (next (fun _ _ => true) defaults) (.init 0) failingRun).isSome := by
  decide +kernel

def failingEnd : Service :=
  (exec (next (fun _ _ => true) defaults) (.init 0) failingRun).get failingRun_runs

theorem server_errors_are_injected_failing : Injected 0 failingRun 1 503 := by
  have hrun : Run (fun _ _ => true) defaults 0 failingRun failingEnd :=
    steps_of_exec (Option.some_get failingRun_runs).symm
  have hfailed : failingEnd.app.tasks[1]?.map Task.pc =
      some (.finished (.response 503) "/api/items") := by decide +kernel
  obtain ⟨task, hi, hpc⟩ := Option.map_eq_some_iff.mp hfailed
  rcases (server_errors_are_injected hrun).1 1 task hi _ _ hpc (by decide) with
    hcancelled | ⟨text, hcrashed⟩ | hinjected
  · cases hcancelled
  · cases hcrashed
  · exact hinjected

end Service
end SampleApp
end ObservabilityStack
