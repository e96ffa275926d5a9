import DataClient.Bytes.Base64
import DataClient.Exchange.Message
import DataClient.Settings.Basic

/-!
# Exchange with a service

A request is turned into a message for an address and handed to a link, which delivers it and
returns what comes back. Nothing here says how a link does that, so everything about an exchange but
the delivery is a function.
-/

set_option autoImplicit false

namespace DataClient

/-- A message to a service. -/
structure Outgoing where
  method : Method
  /-- Where it goes, without user and password. -/
  target : Web.Url
  contentType : Option String
  /-- The media types that are acceptable. -/
  accept : String
  /-- The proof of identity. -/
  authorization : Option String
  body : ByteArray
  /-- Milliseconds after which the exchange is given up. -/
  timeout : Nat

/-- What came back from a service. -/
structure Incoming where
  status : Nat
  contentType : Option String
  /-- Where the service says that the answer is to be found. -/
  location : Option String
  body : ByteArray

/-- Why nothing came back. -/
inductive LinkFault
  | timeout
  /-- No connection could be made. -/
  | unreachable
  /-- The connection ended before the head of an answer. -/
  | noAnswer
  /-- The connection ended inside the body of an answer. -/
  | cutShort
  deriving DecidableEq, Repr, Inhabited

/-- Delivers messages. -/
abbrev Link (m : Type → Type) := Outgoing → m (Except LinkFault Incoming)

/-- The error that a fault is reported as. -/
def LinkFault.toError (target : Web.Url) : LinkFault → TransportError
  | .timeout => .timeout
  | .unreachable => .connect ("error sending request for url (" ++ target.write ++ ")")
  | .noAnswer => .request ("error sending request for url (" ++ target.write ++ ")")
  | .cutShort => .request "error decoding response body"

/-- The characters that a host in an address may have and a host in a message may not. -/
def isUnsendable (c : Char) : Bool := "\"`\x7b\x7d".toList.contains c

/-- Addresses that are longer than this are not sent. -/
def addressLimit : Nat := 65534

/-- Whether an address can stand in a message. -/
def Web.Url.isSendable (url : Web.Url) : Bool :=
  url.write.length ≤ addressLimit
    && !(url.authority.any fun a => a.host.write.toList.any isUnsendable)

/-- The error of a message that cannot be made for an address. -/
def unbuildable (url : Web.Url) : TransportError :=
  .request ("builder error for url (" ++ url.write ++ ")")

/-- Whether a text can be the value of a header: it holds no controls but tabs. -/
def isHeaderValue (s : String) : Bool :=
  s.toList.all fun c => (0x20 ≤ c.toNat && c.toNat != 0x7F) || c = '\t'

/-! ## Redirections -/

/-- So many redirections are followed. -/
def redirectLimit : Nat := 10

namespace Outgoing

/-- The same message without a body, as one that only asks. -/
def asking (message : Outgoing) : Outgoing :=
  { message with method := .get, contentType := none, body := ByteArray.empty }

/-- The same message to another address, without the proof of identity if that is elsewhere. -/
def toward (message : Outgoing) (target : Web.Url) : Outgoing :=
  { message with
    target
    authorization := if target.place = message.target.place then message.authorization else none }

/-- The message that an answer redirects to. -/
def redirected? [Web.DomainReader] (message : Outgoing) (answer : Incoming) : Option Outgoing := do
  let next ←
    if [301, 302, 303].contains answer.status then some message.asking
    else if [307, 308].contains answer.status then some message
    else none
  let target ← (message.target.join (← answer.location)).toOption
  if target.isSendable then some (next.toward target) else none

/-- Delivers a message, and follows up to `left` redirections. -/
def deliver [Web.DomainReader] {m : Type → Type} [Monad m] (link : Link m) :
    (left : Nat) → Outgoing → m (Except TransportError Incoming)
  | left, message => do
    match ← link message with
    | .error fault => return .error (fault.toError message.target)
    | .ok answer =>
      match message.redirected? answer, left with
      | none, _ => return .ok answer
      | some _, 0 =>
        return .error (.request ("error following redirect for url (" ++ message.target.write ++ ")"))
      | some next, left + 1 =>
        if next.target.scheme = "http" ∨ next.target.scheme = "https" then deliver link left next
        else return .error (unbuildable next.target)

end Outgoing

/-- A service at an address. -/
structure Remote where
  base : Web.Url
  timeoutSeconds : Nat

namespace Remote

/-- The service that settings describe. -/
def ofSettings [Web.DomainReader] (s : ServerSettings) : Except ClientError Remote :=
  s.validate.map fun base => ⟨base, s.timeoutSeconds⟩

def address (r : Remote) (request : Request) : Except TransportError Web.Url :=
  match r.base.append? request.segments request.parameters with
  | some url => .ok url
  | none => .error (.request (r.base.write ++ " cannot be a base URL"))

/-- The proof of identity that a user and a password make. -/
def basicAuthorization (user : String) (password : Option String) : String :=
  "Basic " ++ Bytes.toBase64 (user ++ ":" ++ password.getD "").toUTF8

/-- The message of a request. -/
def outgoing (r : Remote) (request : Request) : Except TransportError Outgoing := do
  let url ← r.address request
  let credentials := url.credentials?
  let target := if credentials.isSome then url.withoutCredentials else url
  if !(request.accept.all isHeaderValue) then throw (.request "builder error")
  if !target.isSendable then throw (unbuildable target)
  return {
    method := request.method
    target
    contentType := request.body.contentType?
    accept := request.accept.getD "*/*"
    authorization := credentials.map fun (user, password) => basicAuthorization user password
    body := request.body.bytes
    timeout := request.timeout.getD (r.timeoutSeconds * 1000) }

/-- Sends a request over a link. -/
def send [Web.DomainReader] {m : Type → Type} [Monad m] (r : Remote) (link : Link m)
    (request : Request) :
    m (Except TransportError Response) :=
  match r.outgoing request with
  | .error e => return .error e
  | .ok message => return (← message.deliver link redirectLimit).map fun answer =>
      ⟨answer.status, answer.contentType, request.mode.read answer.body⟩

end Remote

end DataClient
