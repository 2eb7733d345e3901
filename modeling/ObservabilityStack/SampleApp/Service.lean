import ObservabilityStack.SampleApp.Catalog
import ObservabilityStack.SampleApp.Middleware

/-!
# `app/main.py`: the service

Every request is a task of the middleware with a handler inside it: the function FastAPI calls,
with `apply_faults` before it on the routes of the API. A handler gives way to other tasks at its
awaits and nowhere else, so it is a sequence of steps: `call`, up to the sleep of `apply_faults`
if there is one; `wake`, from the end of that sleep; `reserved`, from the end of the sleep in
`create_order`. A task can be cancelled, and a handler can crash, at any of its awaits.

There is one clock. A sleep ends no earlier than it is due. Which function is called for a
request, with which arguments, and what FastAPI answers without calling one, is data of `call`;
so is what the generator draws.

The middleware is the one of `Middleware`: whatever the handlers do, `Run.app` says that it sees
a run of `Middleware`.

The order in which things happen in `apply_faults` is kept: the delay is drawn, the task sleeps,
the error is drawn. So is what is read when: a fault that is armed while a task sleeps can make it
fail, and cannot make it sleep longer. Almost every result about faults and requests depends on
this.

Threads are left out. The endpoints are `async`, FastAPI runs them on the event loop, and nothing
in the service hands work to an executor.
-/

set_option autoImplicit false

namespace ObservabilityStack
namespace SampleApp

open Python (startswith)
open Transition

/-- The settings a request depends on. -/
structure ServiceSettings extends Settings where
  baseLatencySeconds : ℚ
  base_nonneg : 0 ≤ baseLatencySeconds
  base_le : baseLatencySeconds ≤ 5

/-- What `random()` returns. -/
structure Draw where
  value : ℚ
  nonneg : 0 ≤ value
  lt_one : value < 1

/-! ## Endpoints

An endpoint is a function with its arguments, as FastAPI has decoded them, or an answer that
FastAPI gives by itself. -/

/-- The endpoints with the dependency `apply_faults`. -/
inductive Api
  | listItems (limit : ℤ)
  | getItem (itemId : ℤ)
  | createOrder (payload : OrderRequest)
  /-- the dependency has run, and the parameters turn out not to be valid -/
  | invalid (pathFormat : String)

inductive Endpoint
  | metrics
  | healthz
  | readyz
  | api (api : Api)
  | readFaults
  | setLatencyFault (payload : LatencyFaultRequest)
  | setErrorFault (payload : ErrorFaultRequest)
  | clearFaults
  /-- FastAPI answers itself; of a route of `main.py` that is a refusal. -/
  | other (pathFormat : Option String) (status : ℤ) (status_lt : status < 500)
      (refused : pathFormat ≠ none → 400 ≤ status)

/-- `path_format` of the route. -/
def Endpoint.pathFormat : Endpoint → Option String
  | .metrics => some "/metrics"
  | .healthz => some "/healthz"
  | .readyz => some "/readyz"
  | .api (.listItems _) => some "/api/items"
  | .api (.getItem _) => some "/api/items/{item_id}"
  | .api (.createOrder _) => some "/api/orders"
  | .api (.invalid pathFormat) => some pathFormat
  | .readFaults | .clearFaults => some "/faults"
  | .setLatencyFault _ => some "/faults/latency"
  | .setErrorFault _ => some "/faults/errors"
  | .other pathFormat _ _ _ => pathFormat

/-- The method and the path of the decorator, which the request has. -/
def Endpoint.Serves (r : Request) : Endpoint → Prop
  | .metrics => r = ⟨"GET", "/metrics"⟩
  | .healthz => r = ⟨"GET", "/healthz"⟩
  | .readyz => r = ⟨"GET", "/readyz"⟩
  | .api (.listItems _) => r = ⟨"GET", "/api/items"⟩
  | .api (.getItem _) => r.method = "GET" ∧ startswith r.urlPath "/api/items/" = true
  | .api (.createOrder _) => r = ⟨"POST", "/api/orders"⟩
  | .api (.invalid _) => startswith r.urlPath "/api/" = true
  | .readFaults => r = ⟨"GET", "/faults"⟩
  | .setLatencyFault _ => r = ⟨"POST", "/faults/latency"⟩
  | .setErrorFault _ => r = ⟨"POST", "/faults/errors"⟩
  | .clearFaults => r = ⟨"DELETE", "/faults"⟩
  | .other _ _ _ _ => True

instance (r : Request) : ∀ e : Endpoint, Decidable (e.Serves r)
  | .metrics | .healthz | .readyz | .api (.listItems _) | .api (.createOrder _) | .readFaults
  | .setLatencyFault _ | .setErrorFault _ | .clearFaults => inferInstanceAs (Decidable (_ = _))
  | .api (.getItem _) => inferInstanceAs (Decidable (_ ∧ _))
  | .api (.invalid _) => inferInstanceAs (Decidable (_ = _))
  | .other _ _ _ _ => inferInstanceAs (Decidable True)

/-- The body of a response. -/
inductive Payload
  | exposition (registry : Registry)
  | status (text : String)
  | items (items : List Item)
  | item (item : Item)
  | order (order : Order)
  | faults (view : FaultView)
  | detail (text : String)
  | other

/-- What an endpoint answers with. -/
structure Answer where
  status : ℤ
  payload : Payload

/-- What an endpoint returns, or the `HTTPException` it raises. -/
def Answer.of : Except HTTPException Payload → Answer
  | .ok payload => ⟨200, payload⟩
  | .error exc => ⟨exc.statusCode, .detail exc.detail⟩

/-! ## Handlers

The program of each endpoint as far as its next await, and what is left of it then. -/

/-- Where the handler of a task is, between two awaits. -/
inductive HandlerPc
  | routing
  /-- in the sleep of `apply_faults` -/
  | delayed (api : Api) (due : ℚ)
  /-- in the sleep of `create_order` -/
  | reserving (payload : OrderRequest) (item : Item) (due : ℚ)
  | answered (answer : Answer)
  | crashed (text : String)

/-- The handler below the middleware, for the task of the same number. -/
structure Handler where
  /-- `request.scope["route"].path_format`, once there is a route -/
  pathFormat : Option String
  pc : HandlerPc

/-- How `call_next` ends for the middleware, if it ends. -/
def HandlerPc.outcome (cancelled : Bool) (pc : HandlerPc) : Option Outcome :=
  if cancelled then some .cancelled
  else
    match pc with
    | .answered answer => some (.response answer.status)
    | .crashed text => some (.exception text)
    | _ => none

def HandlerPc.isOver : HandlerPc → Bool
  | .answered _ | .crashed _ => true
  | _ => false

/-- How long `apply_faults` sleeps. -/
def faultDelay (baseLatencySeconds : ℚ) (faults : FaultInjector) (now : ℚ)
    (base injected : Draw) : ℚ :=
  let base := baseLatencySeconds * FaultInjector.uniform (6 / 10) (14 / 10) base.value
  let injected := faults.nextDelaySeconds now injected.value
  if injected > 0 then base + injected else base

/-- The endpoint, after `apply_faults` has let the request through. -/
def Api.respond (now : ℚ) (reserve : Draw) : Api → HandlerPc
  | .listItems limit => .answered (.of ((SampleApp.listItems limit).map .items))
  | .getItem itemId => .answered (.of ((SampleApp.getItem itemId).map .item))
  | .createOrder payload =>
      match lookup payload with
      | .error exc => .answered (.of (.error exc))
      | .ok item =>
          .reserving payload item (now + FaultInjector.uniform (4 / 1000) (20 / 1000) reserve.value)
  | .invalid _ => .answered ⟨422, .other⟩

/-- The end of `apply_faults`, and the endpoint. -/
def Api.wake (faults : FaultInjector) (now : ℚ) (error reserve : Draw) (api : Api) : HandlerPc :=
  match faults.nextErrorStatus now error.value with
  | some status => .answered ⟨status.num, .detail "fault injection: upstream unavailable"⟩
  | none => api.respond now reserve

/-! ## The ends of a task

A handler can return, raise, or be cancelled, and the middleware sees which. -/

theorem enter_tasks (sampler : ℚ → ℕ → Bool) (settings : Settings) (s : App) (request : Request)
    (now : ℚ) (traceId spanId : ℕ) : ∃ span,
      (enter sampler settings s request now traceId spanId).tasks =
        s.tasks ++ [⟨request, now, span, .awaiting⟩] := by
  unfold enter
  split
  · exact ⟨_, rfl⟩
  · exact ⟨.invalid, rfl⟩

/-- What the end of the task number `i` leaves of the middleware. -/
def departed (settings : Settings) (s : App) (i : ℕ) (t : Task) (outcome : Outcome)
    (route : String) (now : ℚ) (ts : String) : App :=
  let s := { s with tasks := s.tasks.set i { t with pc := .finished outcome route } }
  if t.request.instrumented then finish settings s t outcome route now ts else s

section Departed

variable {sampler : ℚ → ℕ → Bool} {settings : Settings} {s : App} {i : ℕ} {t : Task}

theorem next_leave (ht : s.tasks[i]? = some t) (hpc : t.pc = .awaiting) (outcome : Outcome)
    (pathFormat : Option String) (now : ℚ) (ts : String) :
    next sampler settings s (.leave i outcome pathFormat now ts) =
      some (departed settings s i t outcome (routeTemplate pathFormat) now ts) := by
  simp only [next, ht, hpc, if_true]
  rfl

@[simp] theorem departed_tasks (outcome : Outcome) (route : String) (now : ℚ) (ts : String) :
    (departed settings s i t outcome route now ts).tasks =
      s.tasks.set i { t with pc := .finished outcome route } := by
  unfold departed
  split <;> rfl

end Departed

/-! ## The service

The state is that of the middleware, of the injector and of the clock, and the handlers that
wait. -/

/-- The service as a whole: the middleware, the injector, the clock, and a handler for each task. -/
structure Service where
  app : App
  faults : FaultInjector
  /-- `ORDERS_CREATED` -/
  ordersCreated : ℕ
  /-- the handlers of the tasks, in their order -/
  handlers : List Handler
  time : ℚ

namespace Service

/-- A service that has started, at the time `t` of its clock. -/
def init (t : ℚ) : Service := ⟨.init, .init, 0, [], t⟩

inductive Action
  | elapse (seconds : ℚ)
  | enter (request : Request) (traceId spanId : ℕ)
  | call (i : ℕ) (endpoint : Endpoint) (base injected : Draw)
  | wake (i : ℕ) (error reserve : Draw)
  | reserved (i : ℕ) (orderId : String)
  | crash (i : ℕ) (text : String)
  | leave (i : ℕ) (cancelled : Bool) (ts : String)

/-- The call of an endpoint: where its handler is then, and the injector it leaves. -/
def called (s : Service) (baseLatencySeconds : ℚ) (base injected : Draw) :
    Endpoint → HandlerPc × FaultInjector
  | .metrics => (.answered ⟨200, .exposition s.app.registry⟩, s.faults)
  | .healthz => (.answered ⟨200, .status "ok"⟩, s.faults)
  | .readyz => (.answered ⟨200, .status "ready"⟩, s.faults)
  | .api api =>
      (.delayed api (s.time + faultDelay baseLatencySeconds s.faults s.time base injected),
        s.faults)
  | .readFaults => (.answered ⟨200, .faults (SampleApp.readFaults s.faults s.time)⟩, s.faults)
  | .setLatencyFault payload =>
      let (answer, armed) := SampleApp.setLatencyFault s.faults s.time s.time payload
      (.answered (.of (answer.map .faults)), armed)
  | .setErrorFault payload =>
      let (answer, armed) := SampleApp.setErrorFault s.faults s.time s.time payload
      (.answered (.of (answer.map .faults)), armed)
  | .clearFaults =>
      let (view, cleared) := SampleApp.clearFaults s.faults s.time
      (.answered ⟨200, .faults view⟩, cleared)
  | .other _ status _ _ => (.answered ⟨status, .other⟩, s.faults)

def setHandler (s : Service) (i : ℕ) (h : Handler) : Service :=
  { s with handlers := s.handlers.set i h }

/-- A task that awaits its handler, and the handler. -/
def awaiting (s : Service) (i : ℕ) : Option (Task × Handler) :=
  match s.app.tasks[i]?, s.handlers[i]? with
  | some t, some h => if t.pc = .awaiting then some (t, h) else none
  | _, _ => none

section Next

variable (sampler : ℚ → ℕ → Bool) (settings : ServiceSettings)

/-- A step of the service. Time passes only by `elapse`; every other step takes none. -/
def next (s : Service) : Action → Option Service
  | .elapse seconds => if 0 ≤ seconds then some { s with time := s.time + seconds } else none
  | .enter request traceId spanId =>
      some { s with
        app := SampleApp.enter sampler settings.toSettings s.app request s.time traceId spanId
        handlers := s.handlers ++ [⟨none, .routing⟩] }
  | .call i endpoint base injected =>
      match s.awaiting i with
      | some (t, ⟨_, .routing⟩) =>
          if endpoint.Serves t.request then
            let (pc, faults) := s.called settings.baseLatencySeconds base injected endpoint
            some ({ s with faults := faults }.setHandler i ⟨endpoint.pathFormat, pc⟩)
          else none
      | _ => none
  | .wake i error reserve =>
      match s.awaiting i with
      | some (_, ⟨pathFormat, .delayed api due⟩) =>
          if due ≤ s.time then
            some (s.setHandler i ⟨pathFormat, api.wake s.faults s.time error reserve⟩)
          else none
      | _ => none
  | .reserved i orderId =>
      match s.awaiting i with
      | some (_, ⟨pathFormat, .reserving payload item due⟩) =>
          if due ≤ s.time then
            some ({ s with ordersCreated := s.ordersCreated + 1 }.setHandler i
              ⟨pathFormat, .answered ⟨201, .order (createOrder payload item orderId)⟩⟩)
          else none
      | _ => none
  | .crash i text =>
      match s.awaiting i with
      | some (_, h) =>
          if h.pc.isOver then none else some (s.setHandler i ⟨h.pathFormat, .crashed text⟩)
      | none => none
  | .leave i cancelled ts =>
      match s.awaiting i with
      | some (_, h) =>
          match h.pc.outcome cancelled with
          | some outcome =>
              (SampleApp.next sampler settings.toSettings s.app
                (.leave i outcome h.pathFormat s.time ts)).map fun app => { s with app := app }
          | none => none
      | none => none

/-- A run of the service, whose clock shows `t` at its start. -/
def Run (t : ℚ) (as : List Action) (s : Service) : Prop :=
  Steps (next sampler settings) Anywhere (.init t) as s

end Next

/-! ## What a step does

One constructor for each kind of step, as for the other machines of this development. -/

/-- The kinds of step, with the guard under which each is taken. -/
inductive Stepped (sampler : ℚ → ℕ → Bool) (settings : ServiceSettings) (s : Service) :
    Action → Service → Prop
  | elapse (seconds : ℚ) (hpos : 0 ≤ seconds) :
      Stepped sampler settings s (.elapse seconds) { s with time := s.time + seconds }
  | enter (request : Request) (traceId spanId : ℕ) :
      Stepped sampler settings s (.enter request traceId spanId) { s with
        app := SampleApp.enter sampler settings.toSettings s.app request s.time traceId spanId
        handlers := s.handlers ++ [⟨none, .routing⟩] }
  | call (i : ℕ) (t : Task) (pathFormat : Option String) (endpoint : Endpoint)
      (base injected : Draw) (hat : s.awaiting i = some (t, ⟨pathFormat, .routing⟩))
      (hserves : endpoint.Serves t.request) :
      Stepped sampler settings s (.call i endpoint base injected)
        ({ s with faults := (s.called settings.baseLatencySeconds base injected endpoint).2
          }.setHandler i ⟨endpoint.pathFormat,
            (s.called settings.baseLatencySeconds base injected endpoint).1⟩)
  | wake (i : ℕ) (t : Task) (pathFormat : Option String) (api : Api) (due : ℚ)
      (error reserve : Draw) (hat : s.awaiting i = some (t, ⟨pathFormat, .delayed api due⟩))
      (hdue : due ≤ s.time) :
      Stepped sampler settings s (.wake i error reserve)
        (s.setHandler i ⟨pathFormat, api.wake s.faults s.time error reserve⟩)
  | reserved (i : ℕ) (t : Task) (pathFormat : Option String) (payload : OrderRequest)
      (item : Item) (due : ℚ) (orderId : String)
      (hat : s.awaiting i = some (t, ⟨pathFormat, .reserving payload item due⟩))
      (hdue : due ≤ s.time) :
      Stepped sampler settings s (.reserved i orderId)
        ({ s with ordersCreated := s.ordersCreated + 1 }.setHandler i
          ⟨pathFormat, .answered ⟨201, .order (createOrder payload item orderId)⟩⟩)
  | crash (i : ℕ) (t : Task) (h : Handler) (text : String)
      (hat : s.awaiting i = some (t, h)) (hover : h.pc.isOver = false) :
      Stepped sampler settings s (.crash i text) (s.setHandler i ⟨h.pathFormat, .crashed text⟩)
  | leave (i : ℕ) (t : Task) (h : Handler) (cancelled : Bool) (ts : String) (outcome : Outcome)
      (hat : s.awaiting i = some (t, h)) (hout : h.pc.outcome cancelled = some outcome) :
      Stepped sampler settings s (.leave i cancelled ts) { s with
        app := departed settings.toSettings s.app i t outcome (routeTemplate h.pathFormat)
          s.time ts }

theorem awaiting_eq_some {s : Service} {i : ℕ} {t : Task} {h : Handler} :
    s.awaiting i = some (t, h) ↔
      s.app.tasks[i]? = some t ∧ s.handlers[i]? = some h ∧ t.pc = .awaiting := by
  unfold awaiting
  cases s.app.tasks[i]? with
  | none => simp
  | some t' =>
    cases s.handlers[i]? with
    | none => simp
    | some h' =>
      simp only [Option.some.injEq]
      split
      · rename_i hpc
        rw [Option.some.injEq, Prod.mk.injEq]
        constructor
        · rintro ⟨rfl, rfl⟩
          exact ⟨rfl, rfl, hpc⟩
        · rintro ⟨rfl, rfl, -⟩
          exact ⟨rfl, rfl⟩
      · rename_i hpc
        refine iff_of_false (fun h => nomatch h) ?_
        rintro ⟨rfl, -, hawait⟩
        exact hpc hawait

theorem next_cases {sampler : ℚ → ℕ → Bool} {settings : ServiceSettings} {s s' : Service}
    {a : Action} (h : next sampler settings s a = some s') : Stepped sampler settings s a s' := by
  cases a with
  | elapse seconds =>
    simp only [next] at h
    split at h <;> cases h
    exact .elapse seconds ‹_›
  | enter request traceId spanId =>
    cases h
    exact .enter request traceId spanId
  | call i endpoint base injected =>
    simp only [next] at h
    split at h
    · rename_i t pathFormat hat
      split at h <;> cases h
      exact .call i t pathFormat endpoint base injected hat ‹_›
    · cases h
  -- Only a handler whose delay is over is resumed.
  | wake i error reserve =>
    simp only [next] at h
    split at h
    · rename_i t pathFormat api due hat
      split at h <;> cases h
      exact .wake i t pathFormat api due error reserve hat ‹_›
    · cases h
  | reserved i orderId =>
    simp only [next] at h
    split at h
    · rename_i t pathFormat payload item due hat
      split at h <;> cases h
      exact .reserved i t pathFormat payload item due orderId hat ‹_›
    · cases h
  | crash i text =>
    simp only [next] at h
    split at h
    · rename_i t hd hat
      split at h <;> cases h
      rename_i hover
      exact .crash i t hd text hat (Bool.eq_false_of_not_eq_true hover)
    · cases h
  -- Here a step of the application is taken as well.
  | leave i cancelled ts =>
    simp only [next] at h
    split at h
    · rename_i t hd hat
      split at h
      · rename_i outcome hout
        obtain ⟨ht, -, hpc⟩ := awaiting_eq_some.mp hat
        rw [next_leave ht hpc] at h
        cases h
        exact .leave i t hd cancelled ts outcome hat hout
      · cases h
    · cases h

/-! ## The middleware sees a run of its own

The projection: what a handler does is invisible there, and its end is a `leave`. -/

section Refinement

variable {sampler : ℚ → ℕ → Bool} {settings : ServiceSettings} {s s' : Service} {a : Action}

/-- A step is one step of the middleware, or none. -/
theorem Stepped.app (h : Stepped sampler settings s a s') :
    ∃ bs, Steps (SampleApp.next sampler settings.toSettings) Anywhere s.app bs s'.app := by
  cases h with
  | elapse | call | wake | reserved | crash => exact ⟨[], .refl⟩
  | enter request traceId spanId =>
    exact ⟨[.enter request s.time traceId spanId], .single trivial rfl⟩
  | leave i t h cancelled ts outcome hat hout =>
    obtain ⟨ht, -, hpc⟩ := awaiting_eq_some.mp hat
    exact ⟨_, .single trivial (next_leave ht hpc outcome h.pathFormat s.time ts)⟩

/-- Handlers and tasks are as many. -/
def Aligned (s : Service) : Prop := s.handlers.length = s.app.tasks.length

theorem Stepped.aligned (h : Stepped sampler settings s a s') (hs : s.Aligned) : s'.Aligned := by
  unfold Aligned at hs ⊢
  cases h with
  | elapse => exact hs
  | call | wake | reserved | crash =>
    show (List.set _ _ _).length = _
    rw [List.length_set]
    exact hs
  | enter request traceId spanId =>
    obtain ⟨span, htasks⟩ :=
      enter_tasks sampler settings.toSettings s.app request s.time traceId spanId
    show (s.handlers ++ [_]).length = (SampleApp.enter _ _ s.app request _ _ _).tasks.length
    rw [htasks, List.length_append, List.length_append, hs]
    rfl
  | leave i t h cancelled ts outcome hat hout =>
    show s.handlers.length = (departed _ s.app _ _ _ _ _ _).tasks.length
    rw [hs, departed_tasks, List.length_set]

/-- **The middleware refines.** Whatever the handlers do, the middleware is in a state of one of its
    own runs. -/
theorem Run.app {t : ℚ} {as : List Action} (h : Run sampler settings t as s) :
    s.Aligned ∧ ∃ bs, SampleApp.Run sampler settings.toSettings bs s.app :=
  h.simulate Service.app rfl fun _ _ _ hs _ hn =>
    ⟨(next_cases hn).aligned hs, (next_cases hn).app⟩

end Refinement

/-! ## The tasks of a run

Tasks are added at the end of the list and keep their number, and a handler waits only for a task
that has not left. -/

/-- The request that arrives with the action. -/
def Action.arrival : Action → Option Request
  | .enter request _ _ => some request
  | _ => none

section Tasks

variable {sampler : ℚ → ℕ → Bool} {settings : ServiceSettings} {s s' : Service} {a : Action}

/-- A task is of the request it was entered with, and tasks stay in the order of their arrival. -/
theorem Stepped.requests (h : Stepped sampler settings s a s') :
    s'.app.tasks.map Task.request = s.app.tasks.map Task.request ++ a.arrival.toList := by
  cases h with
  | elapse | call | wake | reserved | crash => exact (List.append_nil _).symm
  | enter request traceId spanId =>
    obtain ⟨span, htasks⟩ :=
      enter_tasks sampler settings.toSettings s.app request s.time traceId spanId
    show (SampleApp.enter _ _ s.app request _ _ _).tasks.map Task.request = _
    rw [htasks, List.map_append]
    rfl
  | leave i t h cancelled ts outcome hat hout =>
    obtain ⟨ht, -, -⟩ := awaiting_eq_some.mp hat
    show (departed _ s.app _ _ _ _ _ _).tasks.map Task.request = _
    rw [departed_tasks]
    refine (Threads.map_set_of_eq ht ?_).trans (List.append_nil _).symm
    rfl

/-- A task that has finished stays as it is. -/
theorem Stepped.finished (h : Stepped sampler settings s a s') {i : ℕ} {t : Task}
    (ht : s.app.tasks[i]? = some t) (hpc : t.pc ≠ .awaiting) : s'.app.tasks[i]? = some t := by
  cases h with
  | elapse | call | wake | reserved | crash => exact ht
  | enter request traceId spanId =>
    obtain ⟨span, htasks⟩ :=
      enter_tasks sampler settings.toSettings s.app request s.time traceId spanId
    show (SampleApp.enter _ _ s.app request _ _ _).tasks[i]? = _
    rw [htasks, List.getElem?_append_left (List.getElem?_eq_some_iff.mp ht).1]
    exact ht
  | leave j u h cancelled ts outcome hat hout =>
    obtain ⟨hu, -, hawait⟩ := awaiting_eq_some.mp hat
    show (departed _ s.app _ _ _ _ _ _).tasks[i]? = _
    rw [departed_tasks, Threads.getElem?_set hu]
    split
    · -- The task that leaves has not finished before.
      rename_i hij
      rw [hij, hu] at ht
      exact absurd (Option.some.inj ht ▸ hawait) hpc
    · exact ht

end Tasks

/-! ## The clock of a run

Time only passes, and nothing that is due is in the past of the moment it was scheduled. -/

/-- How long the step takes. -/
def Action.seconds : Action → ℚ
  | .elapse seconds => seconds
  | _ => 0

/-- What the clock shows after the actions. -/
def clock (t : ℚ) (as : List Action) : ℚ := t + (as.map Action.seconds).sum

/-- What is read off the actions of a run that starts at `t`, each with the time it is taken at. -/
def stamped {β : Type} (read : ℚ → Action → Option β) (t : ℚ) : List Action → List β
  | [] => []
  | a :: as => (read t a).toList ++ stamped read (t + a.seconds) as

theorem clock_append (t : ℚ) (as bs : List Action) :
    clock t (as ++ bs) = clock (clock t as) bs := by
  unfold clock
  rw [List.map_append, List.sum_append, add_assoc]

theorem stamped_append {β : Type} (read : ℚ → Action → Option β) (t : ℚ) (as bs : List Action) :
    stamped read t (as ++ bs) = stamped read t as ++ stamped read (clock t as) bs := by
  induction as generalizing t with
  | nil =>
    rw [show clock t [] = t from add_zero t]
    rfl
  | cons a as ih =>
    have hclock : clock (t + a.seconds) as = clock t (a :: as) := by
      unfold clock
      rw [List.map_cons, List.sum_cons, add_assoc]
    rw [List.cons_append, stamped, stamped, ih, hclock, List.append_assoc]

theorem stamped_snoc {β : Type} (read : ℚ → Action → Option β) (t : ℚ) (as : List Action)
    (a : Action) :
    stamped read t (as ++ [a]) = stamped read t as ++ (read (clock t as) a).toList := by
  rw [stamped_append, stamped, stamped, List.append_nil]

/-- Each entry was read off one action, at the time it was taken. -/
theorem stamped_split {β : Type} {read : ℚ → Action → Option β} {t : ℚ} {as : List Action}
    {first rest : List β} {b : β} (h : stamped read t as = first ++ b :: rest) :
    ∃ earlier a later, as = earlier ++ a :: later ∧ read (clock t earlier) a = some b ∧
      stamped read (clock t (earlier ++ [a])) later = rest := by
  induction as generalizing t first with
  | nil => cases first <;> cases h
  | cons a as ih =>
    have hclock : ∀ bs, clock t (a :: bs) = clock (t + a.seconds) bs := fun bs => by
      simp [clock, add_assoc]
    -- The entry comes from a later action: the clock it was read at has moved on by this one's
    -- time.
    have hlater : ∀ {first}, stamped read (t + a.seconds) as = first ++ b :: rest →
        ∃ earlier a' later, a :: as = earlier ++ a' :: later ∧
          read (clock t earlier) a' = some b ∧
          stamped read (clock t (earlier ++ [a'])) later = rest := by
      intro first hrest
      obtain ⟨earlier, a', later, has, hread, hrest⟩ := ih hrest
      refine ⟨a :: earlier, a', later, by rw [has, List.cons_append], ?_, ?_⟩
      · rw [hclock]
        exact hread
      · rw [List.cons_append, hclock]
        exact hrest
    rw [stamped] at h
    cases hread : read t a with
    | none =>
      rw [hread, Option.toList_none, List.nil_append] at h
      exact hlater h
    | some b' =>
      rw [hread, Option.toList_some, List.singleton_append] at h
      cases first with
      | nil =>
        obtain ⟨rfl, hrest⟩ := List.cons.inj h
        refine ⟨[], a, as, rfl, ?_, ?_⟩
        · rw [show clock t [] = t from add_zero t]
          exact hread
        · rw [List.nil_append, hclock, show clock (t + a.seconds) [] = t + a.seconds from
            add_zero _]
          exact hrest
      | cons x first =>
        obtain ⟨-, hrest⟩ := List.cons.inj h
        exact hlater hrest

section Clock

variable {sampler : ℚ → ℕ → Bool} {settings : ServiceSettings} {s s' : Service}

theorem Stepped.time {a : Action} (h : Stepped sampler settings s a s') :
    s'.time = s.time + a.seconds := by
  cases h with
  | elapse => rfl
  | enter | call | wake | reserved | crash | leave => exact (add_zero _).symm

/-- The invariant rule for what reads the actions, with the time of the state at hand. -/
theorem invariant_clock {I : List Action → Service → Prop} {as : List Action}
    (h : Steps (next sampler settings) Anywhere s as s') (h₀ : I [] s)
    (hstep : ∀ as s₁ a s₂, I as s₁ → s₁.time = clock s.time as →
      Stepped sampler settings s₁ a s₂ → I (as ++ [a]) s₂) :
    I as s' ∧ s'.time = clock s.time as := by
  refine h.invariant_trace (I := fun as s' => I as s' ∧ s'.time = clock s.time as)
    ⟨h₀, (add_zero _).symm⟩ ?_
  intro as s₁ a s₂ hs _ hn
  obtain ⟨hI, htime⟩ := hs
  refine ⟨hstep as s₁ a s₂ hI htime (next_cases hn), ?_⟩
  rw [(next_cases hn).time, htime, clock_append]
  simp [clock]

end Clock

/-- The defaults of `from_env`. -/
def defaults : ServiceSettings where
  otlpEndpoint := ""
  traceSampleRatio := 1
  ratio_nonneg := by decide +kernel
  ratio_le := by decide +kernel
  baseLatencySeconds := 2 / 100
  base_nonneg := by decide +kernel
  base_le := by decide +kernel

def lowest : Draw := ⟨0, le_rfl, one_pos⟩

end Service

end SampleApp
end ObservabilityStack
