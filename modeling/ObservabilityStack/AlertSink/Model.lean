import ObservabilityStack.Python.Json

/-!
# `alert_sink/model.py`: parsing of the Alertmanager webhook payload

Nothing about the shape of the payload is trusted: every field is read with a default, and a
body that is JSON but no notification is refused with a message.

`MalformedNotificationError` is the only exception the parser raises, so it is `Except` with
the message as the error. The interpreter's stack is not modelled: printing a value has no
depth at which it gives up.
-/

set_option autoImplicit false

namespace ObservabilityStack
namespace AlertSink

open Python (Json)

def supportedVersion : String := "4"

/-- `ReceivedAlert`, a frozen dataclass of strings: every field has a value, if only its default. -/
structure ReceivedAlert where
  receiver : String
  status : String
  alertname : String
  severity : String
  job : String
  instance_ : String
  summary : String
  runbookUrl : String
  startsAt : String
  fingerprint : String
  deriving DecidableEq, Repr

/-- `as_log_fields`, in the order of the code. -/
def ReceivedAlert.asLogFields (a : ReceivedAlert) : List (String × String) :=
  [("receiver", a.receiver), ("status", a.status), ("alertname", a.alertname),
   ("severity", a.severity), ("job", a.job), ("instance", a.instance_), ("summary", a.summary),
   ("runbook_url", a.runbookUrl), ("starts_at", a.startsAt), ("fingerprint", a.fingerprint)]

variable [Unicode]

/-- `_string_map`: the keys of a JSON object are strings already. -/
def stringMap (value : Json) (field : String) : Except String (Dict String String) :=
  match value with
  | .null => .ok .empty
  | .obj pairs => .ok (Json.members (pairs.map fun p => (p.1, p.2.toStr)))
  | _ => .error s!"{field} must be an object"

/-- One turn of the loop over `alerts`. -/
def parseAlert (receiver : String) : Json → Except String ReceivedAlert
  | .obj entry => do
      let labels ← stringMap (Json.get entry "labels") "labels"
      let annotations ← stringMap (Json.get entry "annotations") "annotations"
      let alertname := labels.getD "alertname" ""
      if alertname = "" then .error "alert is missing the `alertname` label"
      else
        return {
          receiver := receiver
          status := (Json.getD entry "status" (.str "unknown")).toStr
          alertname := alertname
          severity := labels.getD "severity" "none"
          job := labels.getD "job" ""
          instance_ := labels.getD "instance" ""
          summary := annotations.getD "summary" ""
          runbookUrl := annotations.getD "runbook_url" ""
          startsAt := (Json.getD entry "startsAt" (.str "")).toStr
          fingerprint := (Json.getD entry "fingerprint" (.str "")).toStr }
  | _ => .error "every element of `alerts` must be an object"

/-- `version is not None and str(version) != SUPPORTED_VERSION`, and the message then. -/
def checkVersion : Json → Except String Unit
  | .null => .ok ()
  | version =>
      if version.toStr = supportedVersion then .ok ()
      else .error (s!"unsupported webhook schema version {version.repr}" ++
        s!", expected {supportedVersion}")

/-- `parse_notification`. -/
def parseNotification : Json → Except String (List ReceivedAlert)
  | .obj payload => do
      checkVersion (Json.get payload "version")
      let receiver := (Json.getD payload "receiver" (.str "unknown")).toStr
      match Json.get payload "alerts" with
      | .arr rawAlerts => rawAlerts.mapM (parseAlert receiver)
      | _ => .error "notification must carry an `alerts` array"
  | _ => .error "notification must be a JSON object"

end AlertSink
end ObservabilityStack
