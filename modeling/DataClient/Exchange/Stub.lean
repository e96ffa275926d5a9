import DataClient.Error
import DataClient.Exchange.Message

/-!
# A service of prepared replies

A stand-in for the service: it answers every verb and path with the reply registered last for them,
and with an empty 404 where none is registered. All replies may be delayed, and a request that
would not wait as long is answered by a timeout. Every request that reaches it is kept.
-/

set_option autoImplicit false

namespace DataClient

/-- What a verb and a path are answered with. -/
inductive Reply
  | response (status : Nat) (contentType : Option String) (body : ByteArray)
  | failure (e : TransportError)

/-- The reply where none is registered. -/
def Reply.notFound : Reply := .response 404 none ByteArray.empty

/-- A reply as a request receives it. -/
def Reply.receive (mode : BodyMode) : Reply → Except TransportError Response
  | .response status contentType body => .ok ⟨status, contentType, mode.read body⟩
  | .failure e => .error e

/-- Prepared replies, the last registered first. -/
structure Stub where
  replies : List ((Method × String) × Reply)
  /-- Milliseconds by which every reply is delayed. -/
  delay : Option Nat

/-- What a request leads to, and how many milliseconds later. -/
structure Delivery where
  after : Nat
  result : Except TransportError Response

namespace Stub

/-- A service without replies. -/
def empty : Stub := ⟨[], none⟩

/-- Registers a reply; an older one for the same verb and path gives way. -/
def register (s : Stub) (method : Method) (path : String) (reply : Reply) : Stub :=
  { s with replies := ((method, path), reply) :: s.replies }

/-- Registers a columnar result. -/
def withColumns (s : Stub) (path : String) (body : ByteArray) : Stub :=
  s.register .post path (.response 200 (some "application/octet-stream") body)

/-- Registers a JSON document. -/
def withJson (s : Stub) (method : Method) (path : String) (status : Nat) (j : Json) : Stub :=
  s.register method path (.response status (some "application/json") j.compact.toUTF8)

/-- The reply to a verb and a path. -/
def lookup (s : Stub) (method : Method) (path : String) : Reply :=
  ((s.replies.find? (·.1 == (method, path))).map (·.2)).getD .notFound

/-- The result that a request receives if it waits. -/
def reply (s : Stub) (r : Request) : Except TransportError Response :=
  (s.lookup r.method r.path).receive r.mode

/-- What a request leads to. -/
def deliver (s : Stub) (r : Request) : Delivery :=
  match s.delay, r.timeout with
  | none, _ => ⟨0, s.reply r⟩
  | some delay, some timeout =>
    if timeout < delay then ⟨timeout, .error .timeout⟩ else ⟨delay, s.reply r⟩
  | some delay, none => ⟨delay, s.reply r⟩

/-- Sends a request: what it leads to, and all requests so far with this one behind them. -/
def send (s : Stub) (log : List Request) (r : Request) : Delivery × List Request :=
  (s.deliver r, log ++ [r])

/-- Sends requests one after the other. -/
def sendAll (s : Stub) (log : List Request) : List Request → List Delivery × List Request
  | [] => ([], log)
  | r :: rest =>
    let (delivery, log) := s.send log r
    let (deliveries, log) := s.sendAll log rest
    (delivery :: deliveries, log)

end Stub

end DataClient
