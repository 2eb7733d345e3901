import ObservabilityStack.Deployment.Summary
import ObservabilityStack.SampleApp.InjectedErrors

/-!
# Whose errors a run reports

A 5xx in the summary of the generator is one of three things: a request without a response, an
exception that left the middleware, or the status of an error fault that was in force when the
request drew its error. The last one was armed by a call of `POST /faults/errors`, and such a call
has a sender: `arm`, for a phase of the scenario that is run, or somebody else (`Attributed`). So a
scenario without error faults reports no errors of its own.

Two facts meet here. The service knows which fault a request was hit by, and by which request that
fault was armed, but not who made either (`Service.ArmedBy`). The generator knows who made which
request. They are joined on the number of the request, and the join is exact: `Provoked` names the
draw of the very request that was answered, and the call that was in force at that draw.

A call of `/faults/errors` by `arm` carries the payload of the phase as FastAPI has validated it.
Which payload that is depends on the validation, so the results hold for every `Validation`.
-/

set_option autoImplicit false

namespace ObservabilityStack
namespace Deployment

open Loadgen (LoadGenerator Stats workerStep_cases)
open SampleApp (ErrorFaultRequest Service ServiceSettings Validation)
open Transition

variable {v : Validation} {sampler : ℚ → ℕ → Bool} {settings : ServiceSettings}
  {g : LoadGenerator} {c c' : State} {a : Action} {t : ℚ} {as : List Action}

/-! ## Who injects

A fault of errors comes from a call of the fault interface, and the call from an origin. An arming
comes from the scenario, since nothing else is sent by `arm`. -/

/-- A request of that origin can inject these errors. -/
def CanInject (v : Validation) (g : LoadGenerator) (payload : ErrorFaultRequest) : Origin → Prop
  | .slot _ => False
  | .arm _ fault => (∃ phase ∈ g.scenario.phases, phase.fault = some fault) ∧
      fault.kind = .errors ∧ v.errors fault.payload = some payload
  | .other => True

/-- Whoever calls the endpoint can. -/
def Attributed (v : Validation) (g : LoadGenerator) (as : List Action) (c : State) : Prop :=
  ∀ i payload base injected,
    Service.Action.call i (.setErrorFault payload) base injected ∈ serviceActions as →
    ∃ origin, c.origins[i]? = some origin ∧ CanInject v g payload origin

theorem endpointOf_eq_setErrorFault {fault : Loadgen.Fault} {payload : ErrorFaultRequest}
    (h : .setErrorFault payload = endpointOf v fault) :
    fault.kind = .errors ∧ v.errors fault.payload = some payload := by
  unfold endpointOf at h
  cases hkind : fault.kind with
  | latency =>
    rw [hkind] at h
    cases hpayload : v.latency fault.payload <;> rw [hpayload] at h <;> cases h
  | errors =>
    rw [hkind] at h
    cases hpayload : v.errors fault.payload with
    | none =>
      rw [hpayload] at h
      cases h
    | some found =>
      rw [hpayload] at h
      cases h
      exact ⟨rfl, rfl⟩
  | clear =>
    rw [hkind] at h
    cases h

/-- The request of a call of the endpoint is an arming, or somebody else's. -/
theorem canInject_of_call (hhonest : Honest g c) {i : ℕ} {payload : ErrorFaultRequest}
    {base injected : SampleApp.Draw} {service : Service}
    (hserves : c.serves v (.call i (.setErrorFault payload) base injected) = true)
    (hnext : Service.next sampler settings c.service
      (.call i (.setErrorFault payload) base injected) = some service) :
    ∃ origin, c.origins[i]? = some origin ∧ CanInject v g payload origin := by
  cases Service.next_cases hnext with
  | call i task pathFormat endpoint base injected hat hrequest =>
    obtain ⟨htask, -, -⟩ := Service.awaiting_eq_some.mp hat
    have hlt : i < c.origins.length := by
      rw [hhonest.aligned]
      exact (List.getElem?_eq_some_iff.mp htask).1
    obtain ⟨origin, horigin⟩ : ∃ origin, c.origins[i]? = some origin :=
      ⟨_, List.getElem?_eq_getElem hlt⟩
    have hexpected := hhonest.expected horigin htask
    have hpath : task.request = ⟨"POST", "/faults/errors"⟩ := hrequest
    refine ⟨origin, horigin, ?_⟩
    cases origin with
    -- A paced request goes to an API path, and the fault control is not one.
    | slot k =>
      have hin := hexpected.instrumented
      rw [hpath] at hin
      exact absurd hin (by decide)
    | arm n fault =>
      simp only [State.serves, horigin] at hserves
      exact ⟨hexpected.1, endpointOf_eq_setErrorFault (of_decide_eq_true hserves)⟩
    | other => trivial

theorem Attributed.step (hc : Attributed v g as c) (hhonest : Honest g c)
    (h : Stepped v sampler settings g c a c') : Attributed v g (as ++ [a]) c' := by
  intro i payload base injected hmem
  rw [serviceActions_snoc] at hmem
  rcases List.mem_append.mp hmem with hmem | hmem
  · obtain ⟨origin, horigin, hcan⟩ := hc i payload base injected hmem
    exact ⟨origin, h.origin horigin, hcan⟩
  · have hstep := h
    cases h with
    | service a service hserves hnext =>
      cases List.mem_singleton.mp hmem
      obtain ⟨origin, horigin, hcan⟩ := canInject_of_call hhonest hserves hnext
      exact ⟨origin, hstep.origin horigin, hcan⟩
    | arrive => cases List.mem_singleton.mp hmem
    | driver | exchanged => cases hmem

theorem Run.attributed (h : Run v sampler settings g t as c) : Attributed v g as c := by
  have hboth : Honest g c ∧ Attributed v g as c := by
    refine h.invariant_trace (I := fun as c => Honest g c ∧ Attributed v g as c)
      ⟨honest_init g t, fun _ _ _ _ hmem => nomatch hmem⟩ ?_
    rintro as c a c' ⟨hhonest, hc⟩ _ hn
    exact ⟨hhonest.step (next_cases hn), hc.step hhonest (next_cases hn)⟩
  exact hboth.2

/-! ## What a status stands for

From the status a worker was answered with, back to the task, to its draw, to the fault that was in
force then, and to the request that injected it. -/

/-- When the request `i` drew its error, an error fault of that status was in force, armed by a call
    of the scenario or of somebody else, and the draw hit it. -/
def Provoked (v : Validation) (g : LoadGenerator) (t : ℚ) (as : List Action) (c : State) (i : ℕ)
    (status : ℤ) : Prop :=
  ∃ before error reserve j payload origin,
    before ++ [.wake i error reserve] <+: serviceActions as ∧
    Service.ArmedBy t before j payload ∧
    error.value < payload.ratio ∧ payload.statusCode = status ∧
    c.origins[j]? = some origin ∧ CanInject v g payload origin

/-- What was injected was injected by somebody. -/
theorem Run.provoked (h : Run v sampler settings g t as c) {i : ℕ} {status : ℤ}
    (hinjected : Service.Injected t (serviceActions as) i status) :
    Provoked v g t as c i status := by
  obtain ⟨before, error, reserve, fault, hpre, hlast, hexpires, hhit, hstatus⟩ := hinjected
  obtain ⟨j, payload, harmed, hratio, hcode⟩ := Service.armedBy_of_lastInjected hlast hexpires
  obtain ⟨base, injected, hmem⟩ := harmed.mem
  obtain ⟨origin, horigin, hcan⟩ := h.attributed j payload base injected
    (hpre.subset (List.mem_append_left _ hmem))
  refine ⟨before, error, reserve, j, payload, origin, hpre, harmed, hratio ▸ hhit, ?_, horigin,
    hcan⟩
  exact_mod_cast hcode.symm.trans hstatus

/-- The status of a `send` is that of the response it has read, or the one for no response. -/
def State.Explains (c : State) (code : ℤ) : Ending → Prop
  | .response i => ∃ task outcome route seen, c.service.app.tasks[i]? = some task ∧
      task.pc = .finished outcome route ∧ reply outcome = some seen ∧ code = outcome.status
  | .failed _ => code = Loadgen.transportFailureStatus
  | .raised _ => False

def Exchanged (as : List Action) (c : State) : Prop :=
  ∀ w k code ending, Action.exchanged (.worker w (.send k (.status code))) ending ∈ as →
    c.Explains code ending

theorem explains_of_ended {origin : Origin} {ending : Ending}
    {seen : Except String Loadgen.Outcome} {code : ℤ} (h : c.ended origin ending = some seen)
    (hcode : .status code = Loadgen.UrllibTransport.send seen) : c.Explains code ending := by
  cases ending with
  | response i =>
    obtain ⟨-, task, outcome, route, seen', htask, hpc, hreply, rfl⟩ := ended_response h
    refine ⟨task, outcome, route, seen', htask, hpc, hreply, ?_⟩
    rw [← (reply_eq_some hreply).1]
    exact Loadgen.SendResult.status.inj hcode
  | failed reason =>
    cases h
    exact Loadgen.SendResult.status.inj hcode
  | raised exc =>
    cases h
    cases hcode

theorem State.Explains.step {code : ℤ} {ending : Ending} (hc : c.Explains code ending)
    (h : Stepped v sampler settings g c a c') : c'.Explains code ending := by
  cases ending with
  | response i =>
    obtain ⟨task, outcome, route, seen, htask, hpc, hreply, hcode⟩ := hc
    exact ⟨task, outcome, route, seen, h.finished htask hpc, hpc, hreply, hcode⟩
  | failed | raised => exact hc

theorem Exchanged.step (hc : Exchanged as c) (h : Stepped v sampler settings g c a c') :
    Exchanged (as ++ [a]) c' := by
  intro w k code ending hmem
  rcases List.mem_append.mp hmem with hmem | hmem
  · exact (hc w k code ending hmem).step h
  · rw [← List.mem_singleton.mp hmem] at h
    refine State.Explains.step ?_ h
    cases h with
    | exchanged a origin seen ending driver hawaited hended hnext =>
      obtain ⟨rfl, hcode⟩ := Prod.mk.inj (Option.some.inj hawaited)
      exact explains_of_ended hended hcode

theorem Run.exchanged (h : Run v sampler settings g t as c) : Exchanged as c := by
  refine h.invariant_trace (I := Exchanged) (fun _ _ _ _ hmem => nomatch hmem) ?_
  intro as c a c' hc _ hn
  exact hc.step (next_cases hn)

/-- A response that is an error was provoked, or an exception has left the middleware. -/
theorem Run.cause (h : Run v sampler settings g t as c) {i : ℕ} {task : SampleApp.Task}
    {outcome : SampleApp.Outcome} {route : String} {seen : Loadgen.Outcome}
    (htask : c.service.app.tasks[i]? = some task) (hpc : task.pc = .finished outcome route)
    (hreply : reply outcome = some seen) (hstatus : 500 ≤ outcome.status) :
    (∃ text, outcome = .exception text) ∨ Provoked v g t as c i outcome.status := by
  obtain ⟨hblamed, -⟩ := h.service.blamed
  cases outcome with
  | response status =>
    exact Or.inr (h.provoked (hblamed.tasks i task htask status route hpc hstatus))
  | exception text => exact Or.inl ⟨text, rfl⟩
  | cancelled => cases hreply

/-- **Errors have a cause.** Every 5xx a worker was answered with stands for a request without a
    response, or an exception that left the middleware, or an error fault that was in force when
    the request drew its error, armed for a phase of the scenario or by somebody else. So when the
    scenario has no error faults, nobody else injects any, every request had a response and no
    exception left the middleware, the run reports no errors. -/
theorem client_errors_have_a_cause (h : Run v sampler settings g t as c) :
    (∀ w k code ending, Action.exchanged (.worker w (.send k (.status code))) ending ∈ as →
      500 ≤ code →
      (∃ reason, ending = .failed reason ∧ code = Loadgen.transportFailureStatus) ∨
      ∃ i task outcome route, ending = .response i ∧ c.service.app.tasks[i]? = some task ∧
        task.pc = .finished outcome route ∧ outcome.status = code ∧
        ((∃ text, outcome = .exception text) ∨ Provoked v g t as c i code)) ∧
    ((∀ phase ∈ g.scenario.phases, ∀ fault, phase.fault = some fault → fault.kind ≠ .errors) →
      (∀ i payload base injected,
        Service.Action.call i (.setErrorFault payload) base injected ∈ serviceActions as →
        c.origins[i]? ≠ some .other) →
      unanswered as = 0 →
      (∀ task ∈ c.service.app.tasks, ∀ text route, task.pc ≠ .finished (.exception text) route) →
      c.driver.stats.errors = 0) := by
  refine ⟨?_, ?_⟩
  · intro w k code ending hmem hcode
    have hexplains := h.exchanged w k code ending hmem
    cases ending with
    | response i =>
      obtain ⟨task, outcome, route, seen, htask, hpc, hreply, rfl⟩ := hexplains
      exact Or.inr ⟨i, task, outcome, route, rfl, htask, hpc, rfl, h.cause htask hpc hreply hcode⟩
    | failed reason => exact Or.inl ⟨reason, rfl, hexplains⟩
    | raised exc => exact hexplains.elim
  · intro hscenario hothers hanswered hnone
    -- With no error fault in the scenario and none from outside, nothing can have been injected.
    have hnever : ∀ i status, ¬ Provoked v g t as c i status := by
      rintro i status ⟨before, error, reserve, j, payload, origin, hpre, harmed, -, -, horigin,
        hcan⟩
      cases origin with
      | slot k => exact hcan
      | arm n fault =>
        obtain ⟨⟨phase, hphase, hfault⟩, hkind, -⟩ := hcan
        exact hscenario phase hphase fault hfault hkind
      | other =>
        obtain ⟨base, injected, hmem⟩ := harmed.mem
        exact hothers j payload base injected (hpre.subset (List.mem_append_left _ hmem)) horigin
    -- So no response that was read is a server error, and all the others are accounted for.
    have hread : (responses as).countP (c.countedAt "5xx") = 0 := by
      rw [List.countP_eq_zero]
      intro i hi hcounted
      obtain ⟨k, -, horigin, task, outcome, route, seen, htask, hpc, hreply⟩ := h.read.answers i hi
      obtain ⟨hcode, hmem⟩ := reply_eq_some hreply
      have h5xx : inClass "5xx" (toString outcome.status) = true := by
        rw [inClass_iff hmem, ← hcode]
        exact of_decide_eq_true
          ((h.honest.countedAt horigin htask hpc hreply "5xx").symm.trans hcounted)
      rw [inClass_5xx, Prometheus.matches5xx_toString] at h5xx
      rcases h.cause htask hpc hreply h5xx.1 with ⟨text, rfl⟩ | hprovoked
      · exact hnone task (List.mem_of_getElem? htask) text route hpc
      · exact hnever _ _ hprovoked
    have hbalanced := h.balanced "5xx"
    rw [hread, hanswered, ite_self] at hbalanced
    exact (Nat.add_eq_zero_iff.mp hbalanced).1

/-- The burst is entered at once, and one request is made. -/
def burstGenerator : LoadGenerator := ⟨"http://svc", .errorBurst, 1, Nat.one_pos⟩

def burstRun : List Action :=
  [.driver (.dispatcher (.readStarted 5)), .driver (.dispatcher .submit),
   .driver (.dispatcher .checkStop), .driver (.dispatcher (.readNow 305)),
   .arrive (.arm 0 Loadgen.bursting) ⟨"POST", "/faults/errors"⟩ 1 1,
   .service (.call 0 (endpointOf .declared Loadgen.bursting) Service.lowest Service.lowest),
   .service (.leave 0 false "t"),
   .exchanged (.dispatcher (.arm Loadgen.bursting (.status 200))) (.response 0),
   .driver (.dispatcher (.putNowait 0)), .driver (.worker 0 (.getSlot 0)),
   .driver (.worker 0 (.choose ⟨"GET", "/api/items", none⟩ 305)),
   .arrive (.slot 0) ⟨"GET", "/api/items"⟩ 2 2,
   .service (.call 1 (.api (.listItems 10)) Service.lowest Service.lowest), .service (.elapse 1),
   .service (.wake 1 Service.lowest Service.lowest), .service (.leave 1 false "t"),
   .exchanged (.worker 0 (.send 0 (.status 503))) (.response 1)]

theorem burstRun_runs :
    (exec (next .declared (fun _ _ => true) Service.defaults burstGenerator) (.init 0)
      burstRun).isSome := by
  decide +kernel

def burstEnd : State :=
  (exec (next .declared (fun _ _ => true) Service.defaults burstGenerator) (.init 0) burstRun).get
    burstRun_runs

/-- The burst has its errors from the scenario, and the calm run has none. -/
theorem client_errors_have_a_cause_burst :
    Provoked .declared burstGenerator 0 burstRun burstEnd 1 503 ∧
      calmEnd.driver.stats.errors = 0 := by
  have hrun : Run .declared (fun _ _ => true) Service.defaults burstGenerator 0 burstRun burstEnd :=
    steps_of_exec (Option.some_get burstRun_runs).symm
  constructor
  · have hanswer : burstEnd.service.app.tasks[1]?.map SampleApp.Task.pc =
        some (.finished (.response 503) "/api/items") := by decide +kernel
    rcases (client_errors_have_a_cause hrun).1 0 0 503 (.response 1) (by simp [burstRun])
      (by decide) with
      ⟨reason, hending, -⟩ | ⟨i, task, outcome, route, hending, htask, hpc, -, hcause⟩
    · cases hending
    · cases hending
      rw [htask, Option.map_some, hpc] at hanswer
      cases hanswer
      rcases hcause with ⟨text, hexception⟩ | hprovoked
      · cases hexception
      · exact hprovoked
  · have hanswers : calmEnd.service.app.tasks.map SampleApp.Task.pc =
        [.finished (.response 200) "/api/items"] := by decide +kernel
    refine (client_errors_have_a_cause run_calmRun).2 ?_ ?_ (by decide) ?_
    · intro phase hphase fault hfault
      rw [List.mem_singleton.mp hphase] at hfault
      cases hfault
    · intro i payload base injected _ hother
      rw [origins_calmEnd] at hother
      exact absurd (List.mem_of_getElem? hother) (by decide)
    · intro task htask text route hpc
      have hmem := List.mem_map_of_mem (f := SampleApp.Task.pc) htask
      rw [hanswers, hpc] at hmem
      cases List.mem_singleton.mp hmem

end Deployment
end ObservabilityStack
