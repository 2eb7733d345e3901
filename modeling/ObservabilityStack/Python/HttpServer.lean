import ObservabilityStack.Lib.Lines
import ObservabilityStack.Python.Text

/-!
# `http.server`: the head of a request

`BaseHTTPRequestHandler` reads a request off the byte stream `rfile` line by line: a request
line, then header lines up to an empty one. `parseRequest` is what `handle_one_request` does
before it calls a `do_…` method. It ends in a `Head` with the stream behind the last header
line, or in a reason why nothing is dispatched and the connection is closed.

Texts are decoded as ISO-8859-1, one character per byte. The header block goes through the
parser of the `email` package, which cuts lines at a lone carriage return too, joins
continuation lines, and skips a line it cannot read; `parseHeaders` is that.

`protocol_version` is `HTTP/1.1`. The interim answer to `Expect: 100-continue` moves nothing on
the stream and is left out.

The parser is here, and not behind a parameter, because where a request ends on the stream is what
the framing of a connection turns on, and that is decided by details: the limits on lines and their
number, what a `Connection` field does to the loop, which of two fields of one name is read. What
happens to the stream after the head is the handler's, and is in the modules of the services.
-/

set_option autoImplicit false

namespace ObservabilityStack
namespace Python
namespace HttpServer

def maxLine : ℕ := 65536

def maxHeaders : ℕ := 100

/-- Why the loop over the requests of a connection ends. `refused` is `send_error`, which sends
    `Connection: close`. -/
inductive Closing (ε : Type)
  | endOfInput
  | blankLine
  | refused (code : ℕ)
  | asked
  | raised (exc : ε)
  deriving DecidableEq, Repr

structure Head where
  command : String
  path : String
  fields : List (String × String)
  deriving DecidableEq, Repr

inductive Parsed (ε : Type)
  | failed (why : Closing ε)
  | head (head : Head) (close : Bool) (rest : List UInt8)
  deriving DecidableEq, Repr

def latin1Char (b : UInt8) : Char := Char.ofNat b.toNat

/-- `str(data, 'iso-8859-1')`. -/
def decode (bytes : List UInt8) : List Char := bytes.map latin1Char

def isLineEnd (c : Char) : Bool := c = '\r' || c = '\n'

def isBlank (c : Char) : Bool := c = ' ' || c = '\t'

def isAsciiDigit (c : Char) : Bool := decide ('0'.toNat ≤ c.toNat ∧ c.toNat ≤ '9'.toNat)

/-! ## The request line

The order of the checks is the order of `parse_request`. A request line that is refused is answered
with an error page, and the loop ends. -/

/-- One component of a version, below the length that is refused. `isdigit` also holds of the
    superscript digits, and `int` refuses those in the same `try`. -/
def versionComponent (cs : List Char) : Option ℕ :=
  if cs ≠ [] ∧ cs.all isAsciiDigit ∧ cs.length ≤ 10 then
    some (ofDigits (cs.map fun c => c.toNat - '0'.toNat))
  else none

def versionNumber (version : List Char) : Option (ℕ × ℕ) :=
  if "HTTP/".toList.isPrefixOf version then
    match (version.drop 5).splitOn '.' with
    | [major, minor] => do
        let major ← versionComponent major
        let minor ← versionComponent minor
        return (major, minor)
    | _ => none
  else none

/-- A path that starts with `//` is reduced to a single slash. -/
def reducePath (path : List Char) : String :=
  match path with
  | '/' :: '/' :: rest => String.ofList ('/' :: rest.dropWhile (· = '/'))
  | _ => String.ofList path

/-- The command, the path, and `close_connection` before the headers are seen. -/
def parseRequestLine {ε : Type} (raw : List UInt8) : Except (Closing ε) (String × String × Bool) :=
  match Lines.words isWhitespace (Lines.rstrip isLineEnd (decode raw)) with
  | [] => .error .blankLine
  | [_] => .error (.refused 400)
  | [command, path] =>
      if command = "GET".toList then .ok (String.ofList command, reducePath path, true)
      else .error (.refused 400)
  | command :: path :: version :: more =>
      match versionNumber ((version :: more).getLast (List.cons_ne_nil _ _)) with
      | none => .error (.refused 400)
      | some (major, minor) =>
          if 2 ≤ major then .error (.refused 505)
          else if more ≠ [] then .error (.refused 400)
          else .ok (String.ofList command, reducePath path, !decide (major = 1 ∧ 1 ≤ minor))

/-! ## The header block

`readHeaders` is `http.client._read_headers`, and the rest is the `email` package on what it
returns. A line that is no field ends the fields but not the block: for the `email` package the
rest is the body of a message, so the fields behind such a line are not seen by the handler. -/

/-- `_read_headers`, with `n` lines left before there are too many; `none` is an exception. -/
def readHeaders : ℕ → List UInt8 → Option (List (List UInt8) × List UInt8)
  | 0, _ => none
  | n + 1, bytes =>
      let r := Lines.readline 10 (maxLine + 1) bytes
      if r.1.length > maxLine then none
      else if r.1 = [13, 10] ∨ r.1 = [10] ∨ r.1 = [] then some ([r.1], r.2)
      else (readHeaders n r.2).map fun s => (r.1 :: s.1, s.2)

/-- The lines of a text, each with its end: `\r\n`, `\r` or `\n`. -/
def crackLines : List Char → List (List Char)
  | [] => []
  | '\r' :: '\n' :: cs => ['\r', '\n'] :: crackLines cs
  | c :: cs =>
      if isLineEnd c then [c] :: crackLines cs
      else
        match crackLines cs with
        | [] => [[c]]
        | line :: lines => (c :: line) :: lines

/-- The characters of a field name. -/
def isFieldChar (c : Char) : Bool :=
  decide (33 ≤ c.toNat ∧ c.toNat ≤ 126 ∧ c ≠ ':')

/-- `headerRE.match(line)` -/
def isHeaderLine (line : List Char) : Bool :=
  "From ".toList.isPrefixOf line ||
    match line.dropWhile isFieldChar with
    | ':' :: _ => true
    | _ => match line with
      | c :: _ => isBlank c
      | [] => false

/-- `_parse_headers`: `last` is the field still open for continuation lines. -/
def parseHeaderLines (last : Option (List Char × List Char)) :
    List (List Char) → List (List Char × List Char)
  | [] => last.toList
  | line :: lines =>
      if line.head?.any isBlank then
        match last with
        | none => parseHeaderLines none lines
        | some (name, value) => parseHeaderLines (some (name, value ++ line)) lines
      else if "From ".toList.isPrefixOf line || line.head? = some ':' then
        last.toList ++ parseHeaderLines none lines
      else
        last.toList ++ parseHeaderLines
          (some (line.takeWhile (· ≠ ':'),
            ((line.dropWhile (· ≠ ':')).drop 1).dropWhile isBlank)) lines

/-- `http.client.parse_headers` on the lines that were read. -/
def parseHeaders (lines : List (List UInt8)) : List (String × String) :=
  (parseHeaderLines none ((crackLines (decode lines.flatten)).takeWhile isHeaderLine)).map
    fun f => (String.ofList f.1, String.ofList (Lines.rstrip isLineEnd f.2))

/-- `s.lower()`, for comparison with an ASCII text: no other Latin-1 letter has an ASCII one as
    its lower case. -/
def lower (s : String) : String := String.ofList (s.toList.map Char.toLower)

/-- `headers.get(name)`: the first field of that name, whatever the case. -/
def field (fields : List (String × String)) (name : String) : Option String :=
  (fields.find? fun f => lower f.1 = lower name).map Prod.snd

/-- `close_connection` once the `Connection` field is known. -/
def closeConnection (fields : List (String × String)) (close : Bool) : Bool :=
  let conntype := lower ((field fields "Connection").getD "")
  if conntype = "close" then true else if conntype = "keep-alive" then false else close

/-- `parse_request`, and the checks of `handle_one_request` around it. -/
def parseRequest {ε : Type} (commands : List String) (rfile : List UInt8) : Parsed ε :=
  let r := Lines.readline 10 (maxLine + 1) rfile
  if r.1.length > maxLine then .failed (.refused 414)
  else if r.1 = [] then .failed .endOfInput
  else
    match parseRequestLine r.1 with
    | .error why => .failed why
    | .ok (command, path, close) =>
        match readHeaders maxHeaders r.2 with
        | none => .failed (.refused 431)
        | some (lines, rest) =>
            let fields := parseHeaders lines
            if command ∈ commands then
              .head ⟨command, path, fields⟩ (closeConnection fields close) rest
            else .failed (.refused 501)

end HttpServer
end Python
end ObservabilityStack
