import DataClient.Json.Writer
import DataClient.Text.Utf8

/-!
# Requests and responses

One exchange with the service: a request relative to the base address, and the response to it. A
response of any status is a response; only what leaves no status behind is an error of the
exchange.
-/

set_option autoImplicit false

namespace DataClient

/-- The verb of a request. -/
inductive Method
  | get
  | post
  | put
  | delete
  deriving DecidableEq, Repr

/-- A verb as it stands on the wire. -/
def Method.name : Method → String
  | .get => "GET"
  | .post => "POST"
  | .put => "PUT"
  | .delete => "DELETE"

/-- How the body of the response is to be handed back. -/
inductive BodyMode
  /-- As text, malformed bytes replaced. -/
  | text
  /-- As the bytes that came. -/
  | binary
  deriving DecidableEq, Repr

/-- What a request carries. -/
inductive RequestBody
  | empty
  | text (s : String)
  | json (j : Json)
  deriving Repr

/-- The media type that a body implies. -/
def RequestBody.contentType? : RequestBody → Option String
  | .empty => none
  | .text _ => some "text/plain"
  | .json _ => some "application/json"

def RequestBody.bytes : RequestBody → ByteArray
  | .empty => ByteArray.empty
  | .text s => s.toUTF8
  | .json j => j.compact.toUTF8

/-- A request, relative to the base address. -/
structure Request where
  method : Method
  /-- The segments of the path, unencoded. -/
  segments : List String
  /-- The parameters of the query, unencoded and in order. -/
  parameters : List (String × String)
  body : RequestBody
  /-- The media types that are acceptable. -/
  accept : Option String
  mode : BodyMode
  /-- Milliseconds after which the exchange is given up. -/
  timeout : Option Nat
  deriving Repr

namespace Request

/-- A request without a body, answered as text. -/
def of (method : Method) (segments : List String) : Request :=
  ⟨method, segments, [], .empty, none, .text, none⟩

/-- Adds a parameter behind the others. -/
def withParameter (r : Request) (key value : String) : Request :=
  { r with parameters := r.parameters ++ [(key, value)] }

/-- Sets the body. -/
def withBody (r : Request) (body : RequestBody) : Request := { r with body }

/-- Sets the acceptable media types. -/
def withAccept (r : Request) (types : String) : Request := { r with accept := some types }

/-- Asks for the bytes of the response. -/
def binary (r : Request) : Request := { r with mode := .binary }

/-- Sets the time after which the exchange is given up. -/
def withTimeout (r : Request) (timeout : Option Nat) : Request := { r with timeout }

/-- The path, every segment behind a slash and none encoded. -/
def path (r : Request) : String :=
  if r.segments.isEmpty then "/" else String.join (r.segments.map fun s => "/" ++ s)

end Request

/-- What a response carries. -/
inductive ResponseBody
  | text (s : String)
  | binary (b : ByteArray)

/-- A response of any status. -/
structure Response where
  status : Nat
  contentType : Option String
  body : ResponseBody

namespace Response

/-- Whether the status says that the request was carried out. -/
def isSuccess (r : Response) : Bool := 200 ≤ r.status && r.status < 300

/-- The body as bytes. -/
def bytes (r : Response) : ByteArray :=
  match r.body with
  | .text s => s.toUTF8
  | .binary b => b

/-- The body as text. -/
def text (r : Response) : String :=
  match r.body with
  | .text s => s
  | .binary b => Text.ofBytesLossy b

end Response

/-- A body handed back in a mode. -/
def BodyMode.read (mode : BodyMode) (bytes : ByteArray) : ResponseBody :=
  match mode with
  | .text => .text (Text.ofBytesLossy bytes)
  | .binary => .binary bytes

end DataClient
