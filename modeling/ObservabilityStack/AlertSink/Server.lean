import ObservabilityStack.AlertSink.Store
import ObservabilityStack.Python.Text

/-!
# `alert_sink/server.py`: the handler of one request

`do_GET` and `do_POST` act on a connection: they read the body from `rfile`, answer on `wfile`,
write log records and change the store. What `BaseHTTPRequestHandler` has parsed before it
calls them is a `Request`; `rfile` stands behind the request's last header line.

`json.loads` on bytes is a parameter, `loads`. It has four ways to fail and `do_POST` catches
one of them, `JSONDecodeError`. An exception that leaves the handler is the error of its
result; whatever was done before it stays done. The socket accepts everything written to it.

The handler is written as the source has it, branch by branch and with the side effects in order,
and as a function of the connection. That makes it the specification of what a handler does when it
is by itself. The steps a thread takes, and what other threads see of them, are another model,
which is proved to come to the same.
-/

set_option autoImplicit false

namespace ObservabilityStack
namespace AlertSink

open Python (Json startswith)

/-- `MAX_BODY_BYTES`: the largest body `do_POST` reads. -/
def maxBodyBytes : ℤ := 4 * 1024 * 1024

/-- The statuses the handler answers with. -/
inductive HTTPStatus
  | ok
  | badRequest
  | notFound
  deriving DecidableEq, Repr

def HTTPStatus.code : HTTPStatus → ℕ
  | .ok => 200
  | .badRequest => 400
  | .notFound => 404

/-- What `_respond` sends: the payload determines the body and both headers. -/
structure Response where
  status : HTTPStatus
  payload : Json

def Response.body (r : Response) : List UInt8 := (r.payload.dumps true).toUTF8.data.toList

def Response.headers (r : Response) : List (String × String) :=
  [("Content-Type", "application/json"), ("Content-Length", toString r.body.length)]

/-- How `json.loads` fails: the syntax, the encoding, a number of too many digits, the depth. -/
inductive LoadsError
  | jsonDecode (message : String)
  | unicodeDecode (message : String)
  | intDigits (message : String)
  | recursion (message : String)
  deriving DecidableEq, Repr

/-- The exceptions that can leave a handler: of `int` on a header, of `recent`, of `json.loads`. -/
inductive Escaped
  | int (text : String)
  | recent (message : String)
  | loads (error : LoadsError)
  deriving DecidableEq, Repr

inductive Level
  | info
  | warning
  deriving DecidableEq, Repr

/-- A record that the handler logs, with its `extra`. -/
structure LogRecord where
  level : Level
  msg : String
  extra : List (String × String)
  deriving DecidableEq, Repr

/-- What the two methods read of a request: its path, and one of its headers. -/
structure Request where
  path : String
  contentLength : Option String
  deriving DecidableEq, Repr

/-- What a handler reads from and writes to. The store is the one all handlers share; what they do
    to it at the same time is in `Handlers`. -/
structure Connection where
  store : AlertStore
  rfile : List UInt8
  wfile : List Response
  log : List LogRecord

namespace Connection

/-- `_respond`. -/
def respond (c : Connection) (status : HTTPStatus) (payload : Json) : Connection :=
  { c with wfile := c.wfile ++ [⟨status, payload⟩] }

def logged (c : Connection) (records : List LogRecord) : Connection :=
  { c with log := c.log ++ records }

end Connection

def errorPayload (message : String) : Json := .obj [("error", .str message)]

def acceptedPayload (n : ℕ) : Json := .obj [("accepted", .int n)]

def alertsPayload (alerts : List ReceivedAlert) : Json :=
  .arr (alerts.map fun a => .obj (a.asLogFields.map fun f => (f.1, .str f.2)))

/-- `do_GET`. -/
def doGet (r : Request) (c : Connection) : Except Escaped Unit × Connection :=
  if startswith r.path "/alerts/firing" then
    (.ok (), c.respond .ok (alertsPayload c.store.firing))
  else if startswith r.path "/alerts" then
    match c.store.recent (some 100) with
    | .ok alerts => (.ok (), c.respond .ok (alertsPayload alerts))
    | .error message => (.error (.recent message), c)
  else if startswith r.path "/healthz" then
    (.ok (), c.respond .ok (.obj [("status", .str "ok"), ("stored", .int c.store.len)]))
  else (.ok (), c.respond .notFound (errorPayload "no such path"))

/-- The record `do_POST` writes for one accepted alert. -/
def alertRecord (a : ReceivedAlert) : LogRecord where
  level := if a.status = "firing" then .warning else .info
  msg := "alert " ++ a.alertname
  extra := a.asLogFields

section Post

variable [Unicode] (loads : List UInt8 → Except LoadsError Json)

/-- The body has been read: decoding, parsing, and one of the two answers. -/
def answer (raw : List UInt8) (c : Connection) : Except Escaped Unit × Connection :=
  let rejected (message : String) : Except Escaped Unit × Connection :=
    (.ok (), (c.logged [⟨.warning, "rejected notification: " ++ message, []⟩]).respond
      .badRequest (errorPayload message))
  match loads raw with
  | .error (.jsonDecode message) => rejected message
  | .error error => (.error (.loads error), c)
  | .ok payload =>
      match parseNotification payload with
      | .error message => rejected message
      | .ok alerts =>
          let c := { c with store := (c.store.addAll alerts).1 }
          (.ok (), (c.logged (alerts.map alertRecord)).respond .ok
            (acceptedPayload alerts.length))

/-- `do_POST`. -/
def doPost (r : Request) (c : Connection) : Except Escaped Unit × Connection :=
  if ¬ startswith r.path "/webhook/" then
    (.ok (), c.respond .notFound (errorPayload "no such path"))
  else
    let text := r.contentLength.getD "0"
    match Python.int text with
    | none => (.error (.int text), c)
    | some length =>
        if length ≤ 0 ∨ length > maxBodyBytes then
          (.ok (), c.respond .badRequest (errorPayload "missing or oversized body"))
        else
          answer loads (c.rfile.take length.toNat)
            { c with rfile := c.rfile.drop length.toNat }

end Post

end AlertSink
end ObservabilityStack
