import ObservabilityStack.SampleApp.Faults

/-!
# `app/main.py`: the fault endpoints

The three endpoints through which `FaultInjector` is controlled, and `GET /faults`. A request
model carries the bounds its `Field`s declare. What FastAPI and pydantic do with a body before
the endpoint is called is the parameter `Validation`: which bodies they accept is left open, and
a body they accept gives every field the value the body has for it or the declared default.

An endpoint reads the clock twice, once to inject and once for the view it answers with.
-/

set_option autoImplicit false

namespace ObservabilityStack
namespace SampleApp

/-- `LatencyFaultRequest`, as pydantic lets it through: three whole numbers in their ranges. That
    the jitter is within the delay is left to the injector. -/
structure LatencyFaultRequest where
  delayMs : ℤ
  jitterMs : ℤ
  ttlSeconds : ℤ
  delay_mem : 0 ≤ delayMs ∧ delayMs ≤ maxLatencyMs
  jitter_mem : 0 ≤ jitterMs ∧ jitterMs ≤ maxLatencyMs
  ttl_mem : 0 < ttlSeconds ∧ ttlSeconds ≤ maxTtlSeconds

/-- `ErrorFaultRequest`, as pydantic lets it through. -/
structure ErrorFaultRequest where
  ratio : ℚ
  statusCode : ℤ
  ttlSeconds : ℤ
  ratio_mem : 0 ≤ ratio ∧ ratio ≤ 1
  status_mem : 500 ≤ statusCode ∧ statusCode ≤ 599
  ttl_mem : 0 < ttlSeconds ∧ ttlSeconds ≤ maxTtlSeconds

/-- `FaultView`: the faults that are in force, without their expiry. -/
structure FaultView where
  latencyDelayMs : Option ℚ
  latencyJitterMs : Option ℚ
  errorRatio : Option ℚ
  errorStatusCode : Option ℚ
  deriving DecidableEq

/-- The view of a state of the injector. -/
def FaultView.of (state : FaultState) : FaultView where
  latencyDelayMs := state.latency.map LatencyFault.delayMs
  latencyJitterMs := state.latency.map LatencyFault.jitterMs
  errorRatio := state.errors.map ErrorFault.ratio
  errorStatusCode := state.errors.map ErrorFault.statusCode

/-- `HTTPException`, which FastAPI turns into an answer. -/
structure HTTPException where
  statusCode : ℤ
  detail : String
  deriving DecidableEq

/-! ## The endpoints

As functions of the injector and the two readings of the clock. -/

section endpoints

variable (faults : FaultInjector) (now viewed : ℚ)

def readFaults : FaultView := .of (faults.state viewed)

/-- `set_latency_fault`: a fault the injector refuses is answered with 422 and its message. -/
def setLatencyFault (payload : LatencyFaultRequest) :
    Except HTTPException FaultView × FaultInjector :=
  match faults.injectLatency now payload.delayMs payload.jitterMs payload.ttlSeconds with
  | .error exc => (.error ⟨422, exc⟩, faults)
  | .ok (_, armed) => (.ok (.of (armed.state viewed)), armed)

/-- `set_error_fault`. -/
def setErrorFault (payload : ErrorFaultRequest) :
    Except HTTPException FaultView × FaultInjector :=
  match faults.injectErrors now payload.ratio payload.statusCode payload.ttlSeconds with
  | .error exc => (.error ⟨422, exc⟩, faults)
  | .ok (_, armed) => (.ok (.of (armed.state viewed)), armed)

def clearFaults : FaultView × FaultInjector := (.of (faults.clear.state viewed), faults.clear)

end endpoints

/-! ## Requests

From a method, a path and a body to an endpoint, for the requests that the generator sends. -/

/-- A JSON object of numbers, which is what the generator sends. -/
abbrev Body := List (String × ℚ)

/-- How bodies become request models; `none` is answered with 422. -/
structure Validation where
  latency : Body → Option LatencyFaultRequest
  errors : Body → Option ErrorFaultRequest
  latency_eq : ∀ body payload, latency body = some payload →
    body.lookup "delay_ms" = some (payload.delayMs : ℚ) ∧
    (body.lookup "jitter_ms").getD 0 = payload.jitterMs ∧
    (body.lookup "ttl_seconds").getD 300 = payload.ttlSeconds
  errors_eq : ∀ body payload, errors body = some payload →
    body.lookup "ratio" = some payload.ratio ∧
    (body.lookup "status_code").getD 503 = payload.statusCode ∧
    (body.lookup "ttl_seconds").getD 300 = payload.ttlSeconds

/-- An integer field of a request model takes a number that is one. -/
def asInt (x : ℚ) : Option ℤ := if x.den = 1 then some x.num else none

theorem asInt_eq_some {x : ℚ} {n : ℤ} (h : asInt x = some n) : x = n := by
  unfold asInt at h
  split at h
  · cases h
    exact (Rat.den_eq_one_iff x).mp ‹_› |>.symm
  · cases h

/-- The validation the declarations ask for. -/
def Validation.declared : Validation where
  latency body := do
    let delayMs ← (body.lookup "delay_ms").bind asInt
    let jitterMs ← asInt ((body.lookup "jitter_ms").getD 0)
    let ttlSeconds ← asInt ((body.lookup "ttl_seconds").getD 300)
    if h : (0 ≤ delayMs ∧ delayMs ≤ maxLatencyMs) ∧
        (0 ≤ jitterMs ∧ jitterMs ≤ maxLatencyMs) ∧
        (0 < ttlSeconds ∧ ttlSeconds ≤ maxTtlSeconds) then
      some ⟨delayMs, jitterMs, ttlSeconds, h.1, h.2.1, h.2.2⟩
    else none
  errors body := do
    let ratio ← body.lookup "ratio"
    let statusCode ← asInt ((body.lookup "status_code").getD 503)
    let ttlSeconds ← asInt ((body.lookup "ttl_seconds").getD 300)
    if h : (0 ≤ ratio ∧ ratio ≤ 1) ∧ (500 ≤ statusCode ∧ statusCode ≤ 599) ∧
        (0 < ttlSeconds ∧ ttlSeconds ≤ maxTtlSeconds) then
      some ⟨ratio, statusCode, ttlSeconds, h.1, h.2.1, h.2.2⟩
    else none
  latency_eq body payload h := by
    simp only [Option.bind_eq_bind, Option.bind_eq_some_iff] at h
    obtain ⟨d, ⟨x, hx, hd⟩, j, hj, t, ht, h⟩ := h
    split at h
    · cases h
      exact ⟨by rw [hx, asInt_eq_some hd], asInt_eq_some hj, asInt_eq_some ht⟩
    · cases h
  errors_eq body payload h := by
    simp only [Option.bind_eq_bind, Option.bind_eq_some_iff] at h
    obtain ⟨r, hr, s, hs, t, ht, h⟩ := h
    split at h
    · cases h
      exact ⟨hr, asInt_eq_some hs, asInt_eq_some ht⟩
    · cases h

/-- The status of an answer. -/
def statusOf : Except HTTPException FaultView → ℤ
  | .ok _ => 200
  | .error exc => exc.statusCode

/-- A request to the fault API: the status it is answered with, and the injector it leaves. -/
def handleFaults (v : Validation) (faults : FaultInjector) (now viewed : ℚ)
    (method path : String) (body : Body) : ℤ × FaultInjector :=
  match method, path with
  | "GET", "/faults" => (statusOf (.ok (readFaults faults viewed)), faults)
  | "POST", "/faults/latency" =>
      match v.latency body with
      | none => (422, faults)
      | some payload =>
          let (answer, armed) := setLatencyFault faults now viewed payload
          (statusOf answer, armed)
  | "POST", "/faults/errors" =>
      match v.errors body with
      | none => (422, faults)
      | some payload =>
          let (answer, armed) := setErrorFault faults now viewed payload
          (statusOf answer, armed)
  | "DELETE", "/faults" =>
      let (view, cleared) := clearFaults faults viewed
      (statusOf (.ok view), cleared)
  | _, _ => (404, faults)

/-- A request that is refused leaves the injector unchanged. -/
theorem handleFaults_refused (v : Validation) (faults : FaultInjector) (now viewed : ℚ)
    (method path : String) (body : Body)
    (h : 400 ≤ (handleFaults v faults now viewed method path body).1) :
    (handleFaults v faults now viewed method path body).2 = faults := by
  unfold handleFaults at h ⊢
  split at h
  · rfl
  · cases hp : v.latency body with
    | none => rfl
    | some payload =>
      simp only [hp, setLatencyFault] at h ⊢
      split at h
      · rename_i exc hexc
        simp
      · simp [statusOf] at h
  · cases hp : v.errors body with
    | none => rfl
    | some payload =>
      simp only [hp, setErrorFault] at h ⊢
      split at h
      · rename_i exc hexc
        simp
      · simp [statusOf] at h
  · simp [statusOf] at h
  · rfl

/-! ## Requests that are accepted

What an accepted request leaves behind: the fault with the values of its payload, until its time is
up. This is all that a client needs to know of the injector. -/

section accepted

variable {v : Validation} {faults : FaultInjector} {now viewed : ℚ} {body : Body}

/-- A latency fault that is accepted is stored with the values of the request, until its time
    to live is over. -/
theorem handleFaults_latency
    (h : (handleFaults v faults now viewed "POST" "/faults/latency" body).1 < 400) :
    ∃ (payload : LatencyFaultRequest) (fault : LatencyFault), v.latency body = some payload ∧
      fault.delayMs = payload.delayMs ∧ fault.jitterMs = payload.jitterMs ∧
      fault.expiresAt = now + payload.ttlSeconds ∧
      (handleFaults v faults now viewed "POST" "/faults/latency" body).2 =
        { faults with latency := some fault } := by
  simp only [handleFaults] at h ⊢
  cases hp : v.latency body with
  | none => simp [hp] at h
  | some payload =>
    simp only [hp, setLatencyFault] at h ⊢
    rcases faults.injectLatency_cases now payload.delayMs payload.jitterMs payload.ttlSeconds with
      ⟨-, fault, hd, hj, he, hok⟩ | ⟨-, message, herr⟩
    · rw [hok]
      exact ⟨payload, fault, rfl, hd, hj, he, rfl⟩
    · simp [herr, statusOf] at h

theorem handleFaults_errors
    (h : (handleFaults v faults now viewed "POST" "/faults/errors" body).1 < 400) :
    ∃ (payload : ErrorFaultRequest) (fault : ErrorFault), v.errors body = some payload ∧
      fault.ratio = payload.ratio ∧ fault.statusCode = payload.statusCode ∧
      fault.expiresAt = now + payload.ttlSeconds ∧
      (handleFaults v faults now viewed "POST" "/faults/errors" body).2 =
        { faults with errors := some fault } := by
  simp only [handleFaults] at h ⊢
  cases hp : v.errors body with
  | none => simp [hp] at h
  | some payload =>
    simp only [hp, setErrorFault] at h ⊢
    rcases faults.injectErrors_cases now payload.ratio payload.statusCode payload.ttlSeconds with
      ⟨-, fault, hr, hs, he, hok⟩ | ⟨-, message, herr⟩
    · rw [hok]
      exact ⟨payload, fault, rfl, hr, hs, he, rfl⟩
    · simp [herr, statusOf] at h

theorem handleFaults_clear :
    (handleFaults v faults now viewed "DELETE" "/faults" body).2 = faults.clear := rfl

end accepted

end SampleApp
end ObservabilityStack
