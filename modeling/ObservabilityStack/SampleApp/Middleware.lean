import ObservabilityStack.Lib.Threads
import ObservabilityStack.Lib.Transition
import ObservabilityStack.SampleApp.Metrics
import ObservabilityStack.SampleApp.Telemetry

/-!
# `app/main.py`: the observability middleware

`ObservabilityMiddleware.dispatch` runs once for every request, as a coroutine. Other requests
run while it awaits `call_next`, and nowhere else, so a request is two steps: `enter`, up to the
`await`, and `leave`, from the moment the `await` ends. How it ends is data of the step: with a
response, with an `Exception`, or with the cancellation of the task, which no `except` clause of
the method catches and its `finally` clause does not miss.

The span of a request is started by a tracer whose sampler is a parameter: a function of the
configured ratio and the trace id, which is what a head-based sampler is. A span that ends is
exported when it was sampled and an exporter is configured.

The model stops at what the middleware can see. A request that is inside may be anywhere in its
handler, and `leave` is enabled for it at any time. The layer with the handlers restricts when a
request leaves and with what; everything that holds of every run here holds there.
-/

set_option autoImplicit false

namespace ObservabilityStack
namespace SampleApp

open Python (Json startswith)
open Transition

/-- The fields of `Settings` that tracing depends on, within the bounds `from_env` checks. -/
structure Settings where
  otlpEndpoint : String
  traceSampleRatio : ℚ
  ratio_nonneg : 0 ≤ traceSampleRatio
  ratio_le : traceSampleRatio ≤ 1

/-- `UNINSTRUMENTED_PREFIXES`: scrapes, health checks and the fault-control API. -/
def uninstrumentedPrefixes : List String := ["/metrics", "/healthz", "/readyz", "/faults"]

/-- What the middleware reads of a request. -/
structure Request where
  method : String
  urlPath : String
  deriving DecidableEq, Repr

/-- The request passes the check of its path at the head of `dispatch`. -/
def Request.instrumented (r : Request) : Bool :=
  !uninstrumentedPrefixes.any fun p => startswith r.urlPath p

/-- `_route_template`, given the `path_format` of the route in the request's scope. -/
def routeTemplate (pathFormat : Option String) : String := pathFormat.getD "__unmatched__"

/-- How `await call_next(request)` ends. -/
inductive Outcome
  | response (status : ℤ)
  | exception (text : String)
  | cancelled
  deriving DecidableEq, Repr

/-- `status` in the `finally` clause. -/
def Outcome.status : Outcome → ℤ
  | .response status => status
  | .exception _ | .cancelled => 500

/-- Before the `await` a task is not seen by the others, so there are two places. -/
inductive TaskPc
  | awaiting
  | finished (outcome : Outcome) (route : String)
  deriving DecidableEq, Repr

/-- A request in `dispatch`, with the local variables that outlive the `await`. -/
structure Task where
  request : Request
  started : ℚ
  span : SpanContext
  pc : TaskPc
  deriving DecidableEq

/-- The state the tasks share, with the tasks that have come so far; `lines` and `exported` are
    what was written to the log and handed to the exporter. -/
structure App where
  registry : Registry
  tasks : List Task
  lines : List (Dict String Json)
  exported : List SpanContext

def App.init : App := ⟨.init, [], [], []⟩

/-- The record of `logger.info("request completed", extra={...})`. -/
def requestCompleted (method route : String) (status : ℤ) (elapsed : ℚ) : LogRecord where
  level := "info"
  name := "sample-app"
  message := "request completed"
  extra := [("http_method", .str method), ("http_route", .str route), ("http_status", .int status),
    ("duration_ms", .float (Python.hundredths (Python.roundHalfEven (elapsed * 1000 * 100))))]
  exception := none

/-- The event loop runs one task at a time, from one `await` to the next. -/
inductive Action
  /-- A request arrives, with the clock and the ids its span is given. -/
  | enter (request : Request) (now : ℚ) (traceId spanId : ℕ)
  /-- The `await` of a task ends, with the route that was matched and the clocks. -/
  | leave (i : ℕ) (outcome : Outcome) (pathFormat : Option String) (now : ℚ) (ts : String)
  deriving DecidableEq

section Dispatch

variable (sampler : ℚ → ℕ → Bool) (settings : Settings)

/-- `dispatch` up to the `await`. -/
def enter (s : App) (request : Request) (now : ℚ) (traceId spanId : ℕ) : App :=
  if request.instrumented then
    let span : SpanContext := ⟨traceId, spanId, sampler settings.traceSampleRatio traceId⟩
    { s with
      registry := { s.registry with requestsInFlight := s.registry.requestsInFlight + 1 }
      tasks := s.tasks ++ [⟨request, now, span, .awaiting⟩] }
  else { s with tasks := s.tasks ++ [⟨request, now, .invalid, .awaiting⟩] }

/-- The `finally` clause, and the end of the span. -/
def finish (s : App) (t : Task) (outcome : Outcome) (route : String) (now : ℚ) (ts : String) :
    App :=
  let elapsed := now - t.started
  let registry := { s.registry with requestsInFlight := s.registry.requestsInFlight - 1 }
  let record := requestCompleted t.request.method route outcome.status elapsed
  { s with
    registry := registry.observeRequest t.request.method route outcome.status elapsed
      (currentTraceId t.span)
    lines := s.lines ++ [Json.members (payloadPairs ts t.span record)]
    exported := if t.span.sampled ∧ settings.otlpEndpoint ≠ "" then s.exported ++ [t.span]
      else s.exported }

/-- A task that has left stays in the list, so that its number stays its own. -/
def next (s : App) : Action → Option App
  | .enter request now traceId spanId => some (enter sampler settings s request now traceId spanId)
  | .leave i outcome pathFormat now ts =>
      match s.tasks[i]? with
      | some t =>
          if t.pc = .awaiting then
            let route := routeTemplate pathFormat
            let s := { s with tasks := s.tasks.set i { t with pc := .finished outcome route } }
            some (if t.request.instrumented then finish settings s t outcome route now ts else s)
          else none
      | none => none

/-- A run of the service: any requests, interleaved in any way, each ending in any way. -/
def Run (as : List Action) (s : App) : Prop :=
  Steps (next sampler settings) Anywhere .init as s

end Dispatch

/-! ## What a step does

The two kinds of step, with the effect of each on the registry and on the tasks. -/

/-- The step is of a request that is not instrumented. -/
def Uninstrumented (s : App) : Action → Prop
  | .enter request _ _ _ => request.instrumented = false
  | .leave i _ _ _ _ => ∃ t, s.tasks[i]? = some t ∧ t.request.instrumented = false

/-- The three kinds of step. -/
inductive Stepped (sampler : ℚ → ℕ → Bool) (settings : Settings) (s : App) : App → Prop
  | entered {t : Task} (hin : t.request.instrumented = true) (hpc : t.pc = .awaiting)
      (hspan : t.span.sampled = sampler settings.traceSampleRatio t.span.traceId) :
      Stepped sampler settings s { s with
        registry := { s.registry with requestsInFlight := s.registry.requestsInFlight + 1 }
        tasks := s.tasks ++ [t] }
  | left {i : ℕ} {t : Task} (outcome : Outcome) (route : String) (now : ℚ) (ts : String)
      (hin : t.request.instrumented = true) (hpc : t.pc = .awaiting)
      (ht : s.tasks[i]? = some t) :
      Stepped sampler settings s (finish settings
        { s with tasks := s.tasks.set i { t with pc := .finished outcome route } }
        t outcome route now ts)
  | passed {tasks : List Task}
      (htasks : (∃ t : Task, t.request.instrumented = false ∧ tasks = s.tasks ++ [t]) ∨
        ∃ (i : ℕ) (t : Task) (pc : TaskPc), t.request.instrumented = false ∧
          s.tasks[i]? = some t ∧ tasks = s.tasks.set i { t with pc := pc }) :
      Stepped sampler settings s { s with tasks := tasks }

theorem next_cases {sampler : ℚ → ℕ → Bool} {settings : Settings} {s s' : App} {a : Action}
    (h : next sampler settings s a = some s') : Stepped sampler settings s s' := by
  cases a with
  | enter request now traceId spanId =>
    simp only [next, Option.some.injEq] at h
    subst h
    unfold enter
    split
    · rename_i hin
      exact .entered hin rfl rfl
    · rename_i hin
      exact .passed (Or.inl ⟨_, by simpa using hin, rfl⟩)
  | leave i outcome pathFormat now ts =>
    simp only [next] at h
    split at h
    · rename_i t ht
      split at h
      · rename_i hpc
        cases h
        split
        · rename_i hin
          exact .left outcome (routeTemplate pathFormat) now ts hin hpc ht
        · rename_i hin
          exact .passed (Or.inr ⟨i, t, _, by simpa using hin, ht, rfl⟩)
      · cases h
    · cases h

end SampleApp
end ObservabilityStack
