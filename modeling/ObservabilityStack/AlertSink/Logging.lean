import ObservabilityStack.SampleApp.Telemetry

/-!
# `alert_sink/server.py`: log lines

The formatter of the alert sink is the one of the sample application without the trace fields
and without the text of an exception. It takes any record of `logging`, not only those the handler
of the sink makes, and those are the records of `SampleApp.LogRecord`.

The two formatters write to the same log store and are read by the same pipeline. What holds of a
line whatever its record, such as how its time stamp is written, is proved of both.
-/

set_option autoImplicit false

namespace ObservabilityStack
namespace AlertSink

open Python (Json)

/-- What `JsonFormatter.format` passes to `formatTime`. -/
def datefmt : String := "%Y-%m-%dT%H:%M:%S%z"

/-- `JsonFormatter._RESERVED`. -/
def reservedLogFields : List String :=
  ["name", "msg", "args", "levelname", "levelno", "pathname", "filename", "module", "exc_info",
   "exc_text", "stack_info", "lineno", "funcName", "created", "msecs", "relativeCreated",
   "thread", "threadName", "processName", "process", "message", "asctime", "taskName"]

/-- The entries `JsonFormatter.format` assigns, in order. -/
def payloadPairs (ts : String) (record : SampleApp.LogRecord) : List (String × Json) :=
  [("ts", Json.str ts), ("level", Json.str record.level), ("logger", Json.str record.name),
    ("msg", Json.str record.message)] ++
  record.extra.filter fun e => e.1 ∉ reservedLogFields

/-- `JsonFormatter.format`. -/
def format (ts : String) (record : SampleApp.LogRecord) : String :=
  Json.dumps false (.obj (payloadPairs ts record))

end AlertSink
end ObservabilityStack
