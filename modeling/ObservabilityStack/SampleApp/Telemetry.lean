import ObservabilityStack.Python.Json

/-!
# `app/telemetry.py`: trace ids and structured log lines

The tracing library is not part of the service. What the code sees of it is the context of the
span that is current: a trace id and a span id, both zero when there is none, and a flag that
says whether the sampler chose the trace. `currentTraceId` reads the trace id and nothing else.
A span that was not sampled has a context like any other.

A log record carries the fields its caller passed with `extra=`; the timestamp is an argument of
`format`, since `formatTime` depends on the time zone of the process.

The formatter assigns its entries in a certain order and the `dict` keeps it, so the entries are
listed here as they are assigned, and the line is what `json.dumps` makes of them. A field of the
caller under a reserved name is dropped, and one under a name that the formatter uses as well
overwrites the formatter's, unless it is assigned later.
-/

set_option autoImplicit false

namespace ObservabilityStack
namespace SampleApp

open Python (Json)

structure SpanContext where
  traceId : ℕ
  spanId : ℕ
  sampled : Bool
  deriving DecidableEq, Repr

/-- The context of the span that is current when none was started. -/
def SpanContext.invalid : SpanContext := ⟨0, 0, false⟩

/-- `format(trace_id, "032x")` -/
def formatTraceId (traceId : ℕ) : String := String.ofList (Python.hex 32 traceId)

/-- `current_trace_id`. -/
def currentTraceId (context : SpanContext) : Option String :=
  if context.traceId = 0 then none else some (formatTraceId context.traceId)

/-- `current_span_id`. -/
def currentSpanId (context : SpanContext) : Option String :=
  if context.spanId = 0 then none else some (String.ofList (Python.hex 16 context.spanId))

/-- `_RESERVED_LOG_FIELDS`. -/
def reservedLogFields : List String :=
  ["name", "msg", "args", "levelname", "levelno", "pathname", "filename", "module", "exc_info",
   "exc_text", "stack_info", "lineno", "funcName", "created", "msecs", "relativeCreated",
   "thread", "threadName", "processName", "process", "message", "asctime", "taskName",
   "color_message"]

structure LogRecord where
  level : String
  name : String
  message : String
  extra : List (String × Json)
  exception : Option String

/-- What `JsonFormatter.format` passes to `formatTime`. -/
def datefmt : String := "%Y-%m-%dT%H:%M:%S%z"

/-- The entries `JsonFormatter.format` assigns, in order; a later one overrides an earlier one of
    the same key. -/
def payloadPairs (ts : String) (context : SpanContext) (record : LogRecord) :
    List (String × Json) :=
  [("ts", .str ts), ("level", .str record.level), ("logger", .str record.name),
    ("msg", .str record.message)] ++
  (match currentTraceId context with
    | none => []
    | some traceId =>
        ("trace_id", .str traceId) ::
          ((currentSpanId context).map fun spanId => ("span_id", Json.str spanId)).toList) ++
  record.extra.filter (fun e => e.1 ∉ reservedLogFields) ++
  (record.exception.map fun text => ("exception", Json.str text)).toList

/-- `JsonFormatter.format`. -/
def format (ts : String) (context : SpanContext) (record : LogRecord) : String :=
  Json.dumps false (.obj (payloadPairs ts context record))

/-- `ts` comes first, and nothing but a field of the caller can come after it under that key. -/
theorem payloadPairs_ts (ts : String) (context : SpanContext) {record : LogRecord}
    (hextra : ∀ e ∈ record.extra, e.1 ≠ "ts") : ∃ rest,
    payloadPairs ts context record = ("ts", .str ts) :: rest ∧ ∀ e ∈ rest, e.1 ≠ "ts" := by
  refine ⟨(payloadPairs ts context record).tail, rfl, ?_⟩
  intro e he
  simp only [payloadPairs, List.nil_append, List.cons_append, List.append_assoc, List.tail_cons,
    List.mem_cons, List.mem_append, List.mem_filter] at he
  -- One case for each fixed key, then the ids of the trace, the extra keys and the exception.
  rcases he with rfl | rfl | rfl | he | ⟨he, _⟩ | he
  · simp
  · simp
  · simp
  · split at he
    · simp at he
    · rcases List.mem_cons.mp he with rfl | he
      · simp
      · cases hspan : currentSpanId context with
        | none => simp [hspan] at he
        | some spanId =>
          simp only [hspan, Option.map_some, Option.toList_some, List.mem_singleton] at he
          rw [he]
          simp
  · exact hextra e he
  · cases hexc : record.exception with
    | none => simp [hexc] at he
    | some text =>
      simp only [hexc, Option.map_some, Option.toList_some, List.mem_singleton] at he
      rw [he]
      simp

theorem formatTraceId_injective {n m : ℕ} (h : formatTraceId n = formatTraceId m) : n = m :=
  Python.hex_injective (String.ofList_injective h)

theorem formatTraceId_ne_empty (n : ℕ) : formatTraceId n ≠ "" := by
  intro h
  have hlist : Python.hex 32 n = [] := String.ofList_injective h
  unfold Python.hex at hlist
  exact Nat.toDigits_ne_nil (List.append_eq_nil_iff.mp hlist).2

end SampleApp
end ObservabilityStack
