import ContentIndex.Json.Tree
import ContentIndex.Number.Integer
import ContentIndex.Text.Ascii

/-
  Requests to the engine, its answers, and the ways in which a request fails. Each header stands
  once, whatever the case of its name, and has the value that was set last.
-/

namespace ContentIndex.Engine

open Json (Value)

inductive Method where
  | get
  | head
  | put
  | post
  | delete
deriving DecidableEq, Repr

/-- A request. Without a time limit of its own it has that of the transport. -/
structure Request where
  method : Method
  path : String
  body : Option String := none
  headers : List (String × String) := [("Content-Type", "application/json")]
  timeoutMs : Option UInt64 := none
deriving DecidableEq, Repr

namespace Request

/-- A request without a body. -/
def new (method : Method) (path : String) : Request := { method, path }

def get (path : String) : Request := { method := .get, path }
def head (path : String) : Request := { method := .head, path }
def delete (path : String) : Request := { method := .delete, path }
def put (path body : String) : Request := { method := .put, path, body := some body }
def post (path body : String) : Request := { method := .post, path, body := some body }

def withBody (r : Request) (body : String) : Request :=
  { r with body := some body }

/-- Sets a header. -/
def withHeader (r : Request) (name value : String) : Request :=
  { r with
    headers := (r.headers.filter fun h => !Text.sameWord h.1 name) ++ [(name, value)] }

/-- Declares the body to be JSON texts between line breaks. -/
def ndjson (r : Request) : Request :=
  r.withHeader "Content-Type" "application/x-ndjson"

def withTimeout (r : Request) (ms : UInt64) : Request :=
  { r with timeoutMs := some ms }

/-- The value of a header. -/
def header? (r : Request) (name : String) : Option String :=
  (r.headers.find? fun h => Text.sameWord h.1 name).map (·.2)

/-- The service that the path names, or "document" if it names none. -/
def service (r : Request) : String :=
  let parts := (Text.splitAt '/' r.path.toList).reverse
  match parts.find? (! ·.isEmpty) with
  | some ('_' :: cs) => String.ofList ('_' :: cs)
  | _ => "document"

end Request

/-! ## Headers -/

/-- Whether a character may stand in the name of a header. -/
def isTokenChar (c : Char) : Bool :=
  c.isAlphanum || "!#$%&'*+-.^_\u0060|~".toList.contains c

/-- Whether a text is the name of a header: a token of at most 65535 characters. -/
def isHeaderName (s : String) : Bool :=
  s.toList.all isTokenChar && 0 < s.length && s.length < 65536

/-- Whether a text can be the value of a header: without controls other than the tab. -/
def isHeaderValue (s : String) : Bool :=
  s.toList.all fun c => c == '\t' || ' ' ≤ c && c ≠ '\x7f'

/-- Why a request has no good answer. -/
inductive TransportError where
  | connect (host reason : String)
  | timeout (host : String)
  | status (status : UInt16) (body : String)
  | circuitOpen (host : String)
  | exhausted (attempts : UInt64) (last : String)
  | invalidBody (reason : String)
  | setup (reason : String)
deriving DecidableEq, Repr

def TransportError.message : TransportError → String
  | .connect host reason => "connection to " ++ host ++ " failed: " ++ reason
  | .timeout host => "request to " ++ host ++ " timed out"
  | .status s body => "engine returned HTTP " ++ Number.natText s.toNat ++ ": " ++ body
  | .circuitOpen host => "circuit open for " ++ host
  | .exhausted n last =>
    "all hosts failed after " ++ Number.natText n.toNat ++ " attempts: " ++ last
  | .invalidBody reason => "invalid response body: " ++ reason
  | .setup reason => "transport setup failed: " ++ reason

/-- An answer of the engine. -/
structure Response where
  status : UInt16
  body : String
deriving DecidableEq, Repr

namespace Response

def isSuccess (r : Response) : Bool := 200 ≤ r.status && r.status < 300

/-- The JSON value of the body. -/
def json (r : Response) : Except TransportError Value :=
  match Value.parse? r.body with
  | some v => .ok v
  | none => .error (.invalidBody "no JSON text")

/-- The answer, if it is a success. -/
def checked (r : Response) : Except TransportError Response :=
  if r.isSuccess then .ok r else .error (.status r.status r.body)

end Response
end ContentIndex.Engine
