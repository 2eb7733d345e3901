import ObservabilityStack.Loadgen.Transport
import ObservabilityStack.SampleApp.FaultApi
import ObservabilityStack.SampleApp.Service

/-!
# The generator and the service together

`docker-compose.yml` runs the service, and `loadgen` is run against it. The two programs share
nothing but the requests between them, so the deployment is the product of the driver and the
service with a wire in between: a call of `transport.send` puts its request on the wire when it
begins, the service takes requests off the wire in any order and at any time, and the call ends
with what the service has answered to *that* request, or without a response. A request may stay on
the wire for ever, and may arrive after its sender has given up. Everybody else who talks to the
service (the scrapes, the probes, a person with `curl`) enters requests at will.

What FastAPI makes of the body of an arming is `Validation`. The two clocks are not related.

Each program sees a run of its own (`Run.driver`, `Run.service`).

That the product refines each of its factors is what lets the results about the generator and about
the service be used here as they are. Nothing was assumed about the environment there, so nothing
has to be proved about the other program before they apply. What is new in the deployment is only
what relates the two, and that is in the invariants of the modules above this one.
-/

set_option autoImplicit false

namespace ObservabilityStack
namespace Deployment

open Loadgen (Fault HttpStatus LoadGenerator SendResult)
open SampleApp (Api Endpoint ErrorFaultRequest LatencyFaultRequest Request Service ServiceSettings
  Validation)
open Transition

deriving instance DecidableEq for LatencyFaultRequest, ErrorFaultRequest, Api, Endpoint

/-! ## Requests and responses

The bridge between what one program sends and the other receives: an arming becomes the call of an
endpoint, or is refused because of its body; the outcome of a task becomes a status, or nothing. -/

/-- Whose request it is. -/
inductive Origin
  | slot (k : ℕ)
  /-- of a call of `arm`; `n` have ended before -/
  | arm (n : ℕ) (fault : Fault)
  | other
  deriving DecidableEq

theorem unprocessable_lt : (422 : ℤ) < 500 := by decide

theorem unprocessable_refused (pathFormat : Option String) :
    pathFormat ≠ none → 400 ≤ (422 : ℤ) := fun _ => by decide

/-- A body that is not valid is answered before the endpoint is called. -/
def unprocessable (path : String) : Endpoint :=
  .other (some path) 422 unprocessable_lt (unprocessable_refused (some path))

/-- What is called for the request of `arm`. -/
def endpointOf (v : Validation) (fault : Fault) : Endpoint :=
  match fault.kind with
  | .latency => ((v.latency fault.payload).map .setLatencyFault).getD (unprocessable fault.path)
  | .errors => ((v.errors fault.payload).map .setErrorFault).getD (unprocessable fault.path)
  | .clear => .clearFaults

theorem toNat_mem {status : ℤ} (h : 100 ≤ status ∧ status ≤ 599) :
    100 ≤ status.toNat ∧ status.toNat ≤ 599 := by
  omega

/-- The status, if an HTTP response can carry it. -/
def httpStatus? (status : ℤ) : Option HttpStatus :=
  if h : 100 ≤ status ∧ status ≤ 599 then some ⟨status.toNat, (toNat_mem h).1, (toNat_mem h).2⟩
  else none

/-- What the client sees of how a request has left the middleware. An exception is answered with
    500 by the server around the application, and a task that is cancelled is not answered. The
    service redirects none of these requests. -/
def reply : SampleApp.Outcome → Option Loadgen.Outcome
  | .response status =>
      if 200 ≤ status ∧ status < 300 then (httpStatus? status).map .response
      else if 400 ≤ status then (httpStatus? status).map .httpError
      else none
  | .exception _ => (httpStatus? 500).map .httpError
  | .cancelled => none

theorem httpStatus?_eq_some {status : ℤ} {http : HttpStatus} (h : httpStatus? status = some http) :
    (http.code : ℤ) = status ∧ 100 ≤ status ∧ status ≤ 599 := by
  unfold httpStatus? at h
  split at h
  · rename_i hmem
    cases h
    exact ⟨Int.toNat_of_nonneg (by omega), hmem⟩
  · cases h

/-- The client sees the status that the middleware has counted. -/
theorem reply_eq_some {outcome : SampleApp.Outcome} {seen : Loadgen.Outcome}
    (h : reply outcome = some seen) :
    seen.code = outcome.status ∧ 100 ≤ outcome.status ∧ outcome.status ≤ 599 := by
  unfold reply at h
  split at h
  · split at h
    · obtain ⟨http, hhttp, rfl⟩ := Option.map_eq_some_iff.mp h
      exact httpStatus?_eq_some hhttp
    · split at h
      · obtain ⟨http, hhttp, rfl⟩ := Option.map_eq_some_iff.mp h
        exact httpStatus?_eq_some hhttp
      · cases h
  · obtain ⟨http, hhttp, rfl⟩ := Option.map_eq_some_iff.mp h
    exact httpStatus?_eq_some hhttp
  · cases h

/-! ## States and actions

A call of `transport.send` begins with one action of the generator and ends with a later one. In
between, the generator is in `send`, and what it is waiting for is on the wire or at the service. -/

/-- The generator and the service, and what is between them. -/
structure State where
  driver : Loadgen.State
  service : Service
  /-- the requests of the generator that are on their way -/
  wire : List (Origin × Request)
  /-- whose the tasks of the service are, in their order -/
  origins : List Origin
  /-- the calls of `arm` that have ended -/
  arms : ℕ

/-- Nothing has been sent, and both programs are at their start. -/
def State.init (t : ℚ) : State := ⟨.init, .init t, [], [], 0⟩

/-- How a call of `transport.send` ends. -/
inductive Ending
  /-- with the response to the task of that number -/
  | response (i : ℕ)
  /-- `URLError`, `TimeoutError` or another `OSError` -/
  | failed (reason : String)
  /-- an exception that no clause of `send` catches -/
  | raised (exc : String)
  deriving DecidableEq

inductive Action
  /-- A step of the generator other than the end of a call of `send`. -/
  | driver (a : Loadgen.Action)
  /-- A step of the service; a request that arrives with it is somebody else's. -/
  | service (a : Service.Action)
  /-- A request of the generator arrives. -/
  | arrive (origin : Origin) (request : Request) (traceId spanId : ℕ)
  /-- A call of `send` ends. -/
  | exchanged (a : Loadgen.Action) (ending : Ending)

/-- The request whose `send` ends with the action, and what it ends with. -/
def awaited (arms : ℕ) : Loadgen.Action → Option (Origin × SendResult)
  | .worker _ (.send k result) => some (.slot k, result)
  | .dispatcher (.arm fault result) => some (.arm arms fault, result)
  | _ => none

/-- The request whose `send` begins with the action, which leads the generator to `driver`. -/
def outgoing (arms : ℕ) (driver : Loadgen.State) : Loadgen.Action → Option (Origin × Request)
  | .worker w (.choose _ _) =>
      match driver.workers[w]? with
      | some (.sending k spec _) => some (.slot k, ⟨spec.method, spec.path⟩)
      | _ => none
  | .dispatcher (.readNow _) =>
      match driver.pc with
      | .arming _ fault _ => some (.arm arms fault, ⟨fault.method, fault.path⟩)
      | _ => none
  | _ => none

/-- Whether the step ends a call of `arm`; the calls are numbered by how many have ended. -/
def armsEnded : Loadgen.Action → ℕ
  | .dispatcher (.arm _ _) => 1
  | _ => 0

/-- What `send` sees of that ending, if it can end so now. -/
def State.ended (c : State) (origin : Origin) : Ending → Option (Except String Loadgen.Outcome)
  | .response i =>
      if c.origins[i]? = some origin then
        match c.service.app.tasks[i]? with
        | some ⟨_, _, _, .finished outcome _⟩ => (reply outcome).map .ok
        | _ => none
      else none
  | .failed reason => some (.ok (.failed reason))
  | .raised exc => some (.error exc)

/-- An arming is served as its body asks for. -/
def State.serves (v : Validation) (c : State) : Service.Action → Bool
  | .call i endpoint _ _ =>
      match c.origins[i]? with
      | some (.arm _ fault) => endpoint = endpointOf v fault
      | _ => true
  | _ => true

section Next

variable (v : Validation) (sampler : ℚ → ℕ → Bool) (settings : ServiceSettings)
  (g : LoadGenerator)

/-- A step of the generator, of the service, or of a request between them. A call of `send` begins
    and ends in steps of the generator, so those are taken together with the wire. -/
def next (c : State) : Action → Option State
  | .driver a =>
      match awaited c.arms a with
      | some _ => none
      | none =>
          (Loadgen.next g c.driver a).map fun driver =>
            { c with driver := driver, wire := c.wire ++ (outgoing c.arms driver a).toList }
  | .service a =>
      if c.serves v a then
        (Service.next sampler settings c.service a).map fun service =>
          { c with
            service := service, origins := c.origins ++ (a.arrival.map fun _ => .other).toList }
      else none
  | .arrive origin request traceId spanId =>
      if (origin, request) ∈ c.wire then
        (Service.next sampler settings c.service (.enter request traceId spanId)).map fun service =>
          { c with
            service := service, wire := c.wire.erase (origin, request)
            origins := c.origins ++ [origin] }
      else none
  | .exchanged a ending =>
      match awaited c.arms a with
      | none => none
      | some (origin, result) =>
          if (c.ended origin ending).map Loadgen.UrllibTransport.send = some result then
            (Loadgen.next g c.driver a).map fun driver =>
              { c with driver := driver, arms := c.arms + armsEnded a }
          else none

/-- A run of the deployment: any interleaving, any network, any other clients. -/
def Run (t : ℚ) (as : List Action) (c : State) : Prop :=
  Steps (next v sampler settings g) Anywhere (.init t) as c

end Next

/-! ## What a step does

The four kinds of step: the generator by itself, the generator with an answer, the service by
itself, and the arrival of a request. -/

/-- `next` as a relation, one constructor for each action. -/
inductive Stepped (v : Validation) (sampler : ℚ → ℕ → Bool) (settings : ServiceSettings)
    (g : LoadGenerator) (c : State) : Action → State → Prop
  | driver (a : Loadgen.Action) (driver : Loadgen.State) (hlocal : awaited c.arms a = none)
      (hnext : Loadgen.next g c.driver a = some driver) :
      Stepped v sampler settings g c (.driver a)
        { c with driver := driver, wire := c.wire ++ (outgoing c.arms driver a).toList }
  | service (a : Service.Action) (service : Service) (hserves : c.serves v a = true)
      (hnext : Service.next sampler settings c.service a = some service) :
      Stepped v sampler settings g c (.service a)
        { c with
          service := service, origins := c.origins ++ (a.arrival.map fun _ => .other).toList }
  | arrive (origin : Origin) (request : Request) (traceId spanId : ℕ) (service : Service)
      (hwire : (origin, request) ∈ c.wire)
      (hnext : Service.next sampler settings c.service (.enter request traceId spanId) =
        some service) :
      Stepped v sampler settings g c (.arrive origin request traceId spanId)
        { c with
          service := service, wire := c.wire.erase (origin, request)
          origins := c.origins ++ [origin] }
  | exchanged (a : Loadgen.Action) (origin : Origin) (seen : Except String Loadgen.Outcome)
      (ending : Ending) (driver : Loadgen.State)
      (hawaited : awaited c.arms a = some (origin, Loadgen.UrllibTransport.send seen))
      (hended : c.ended origin ending = some seen)
      (hnext : Loadgen.next g c.driver a = some driver) :
      Stepped v sampler settings g c (.exchanged a ending)
        { c with driver := driver, arms := c.arms + armsEnded a }

section Steps

variable {v : Validation} {sampler : ℚ → ℕ → Bool} {settings : ServiceSettings}
  {g : LoadGenerator} {c c' : State} {a : Action} {t : ℚ} {as : List Action}

theorem next_cases (h : next v sampler settings g c a = some c') :
    Stepped v sampler settings g c a c' := by
  cases a with
  | driver a =>
    simp only [next] at h
    split at h
    · cases h
    · rename_i hlocal
      obtain ⟨driver, hnext, rfl⟩ := Option.map_eq_some_iff.mp h
      exact .driver a driver hlocal hnext
  | service a =>
    simp only [next] at h
    split at h
    · rename_i hserves
      obtain ⟨service, hnext, rfl⟩ := Option.map_eq_some_iff.mp h
      exact .service a service hserves hnext
    · cases h
  | arrive origin request traceId spanId =>
    simp only [next] at h
    split at h
    · rename_i hwire
      obtain ⟨service, hnext, rfl⟩ := Option.map_eq_some_iff.mp h
      exact .arrive origin request traceId spanId service hwire hnext
    · cases h
  -- The driver takes its own step, with the result that the ending gives it.
  | exchanged a ending =>
    simp only [next] at h
    split at h
    · cases h
    · rename_i origin result hawaited
      split at h
      · rename_i hended
        obtain ⟨seen, hseen, rfl⟩ := Option.map_eq_some_iff.mp hended
        obtain ⟨driver, hnext, rfl⟩ := Option.map_eq_some_iff.mp h
        exact .exchanged a origin seen ending driver hawaited hseen hnext
      · cases h

/-! ## Each program sees a run of its own

By forgetting the other program, action by action. -/

/-- What the generator has done. -/
def Action.ofDriver : Action → Option Loadgen.Action
  | .driver a | .exchanged a _ => some a
  | _ => none

def driverActions (as : List Action) : List Loadgen.Action := as.filterMap Action.ofDriver

/-- What the service has done. -/
def Action.ofService : Action → Option Service.Action
  | .service a => some a
  | .arrive _ request traceId spanId => some (.enter request traceId spanId)
  | _ => none

def serviceActions (as : List Action) : List Service.Action := as.filterMap Action.ofService

theorem driverActions_snoc (as : List Action) (a : Action) :
    driverActions (as ++ [a]) = driverActions as ++ a.ofDriver.toList := by
  cases h : a.ofDriver <;> simp [driverActions, h]

theorem serviceActions_snoc (as : List Action) (a : Action) :
    serviceActions (as ++ [a]) = serviceActions as ++ a.ofService.toList := by
  cases h : a.ofService <;> simp [serviceActions, h]

/-- **The generator refines.** Against the service it does nothing it could not do against an
    arbitrary environment. -/
theorem Run.driver (h : Run v sampler settings g t as c) :
    Loadgen.Run g (driverActions as) c.driver := by
  have hstart : Loadgen.Run g (driverActions []) (State.init t).driver := .refl
  refine h.invariant_trace (I := fun as c => Loadgen.Run g (driverActions as) c.driver) hstart ?_
  intro as c a c' hc _ hn
  rw [driverActions_snoc]
  cases next_cases hn with
  | driver a driver hlocal hnext => exact .snoc hc trivial hnext
  | exchanged a origin seen ending driver hawaited hended hnext => exact .snoc hc trivial hnext
  | service | arrive =>
    rw [show Option.toList _ = ([] : List Loadgen.Action) from rfl, List.append_nil]
    exact hc

/-- **The service refines.** -/
theorem Run.service (h : Run v sampler settings g t as c) :
    Service.Run sampler settings t (serviceActions as) c.service := by
  have hstart : Service.Run sampler settings t (serviceActions []) (State.init t).service := .refl
  refine h.invariant_trace
    (I := fun as c => Service.Run sampler settings t (serviceActions as) c.service) hstart ?_
  intro as c a c' hc _ hn
  rw [serviceActions_snoc]
  cases next_cases hn with
  | service a service hserves hnext => exact .snoc hc trivial hnext
  | arrive origin request traceId spanId service hwire hnext => exact .snoc hc trivial hnext
  | driver | exchanged =>
    rw [show Option.toList _ = ([] : List Service.Action) from rfl, List.append_nil]
    exact hc

end Steps

end Deployment
end ObservabilityStack
