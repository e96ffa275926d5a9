import DataClient.Exchange.Stub
import DataClient.Query.Submission

/-!
# Calls on a shared clock

A call sends one query and waits for its result, for its timeout or for being cancelled. Time is a
number of milliseconds. A call does nothing by itself: it is looked at, at one instant after
another, and each look lets it take the steps that are due. What is looked at first decides a race
at one instant: cancellation comes before the result, the result before the timeout.

Calls that share a service share nothing else but the record of the requests it received.
-/

set_option autoImplicit false

namespace DataClient

/-- A query that is made at some instant. -/
structure Call where
  sql : String
  submission : Submission
  /-- Milliseconds after which the call gives up. -/
  timeout : Option Nat
  /-- Milliseconds after which the call is cancelled. -/
  cancelAfter : Option Nat
  /-- The instant at which the call is made. -/
  start : Nat
  deriving DecidableEq, Repr

/-- How far a call is. -/
inductive Progress
  /-- Nothing has been sent. -/
  | idle
  /-- The request is under way. -/
  | waiting (since : Nat)
  | ended (instant : Nat) (result : Except TransportError Response)

namespace Call

def request (c : Call) : Request := Query.request c.sql c.submission c.timeout

/-- Whether a call has been cancelled by an instant. -/
def isCancelled (c : Call) (now : Nat) : Bool :=
  match c.cancelAfter with
  | some after => c.start + after ≤ now
  | none => false

/-- Whether a call that sent its request has reached its own timeout. -/
def isOverdue (c : Call) (since now : Nat) : Bool :=
  match c.timeout with
  | some timeout => since + timeout ≤ now
  | none => false

/-- What is due for a call whose request is under way. -/
def await (c : Call) (stub : Stub) (since now : Nat) : Progress :=
  let delivery := stub.deliver c.request
  if since + delivery.after ≤ now then .ended now delivery.result
  else if c.isOverdue since now then .ended now (.error .timeout)
  else .waiting since

/-- Looks at a call: what it has come to, and the request if that is sent now. -/
def look (c : Call) (stub : Stub) (now : Nat) : Progress → Progress × Option Request
  | .ended instant result => (.ended instant result, none)
  | .idle =>
    if c.isCancelled now then (.ended now (.error .cancelled), none)
    else (c.await stub now now, some c.request)
  | .waiting since =>
    if c.isCancelled now then (.ended now (.error .cancelled), none)
    else (c.await stub since now, none)

/-- The instants, in order, at which something may be due for a call that is looked at as soon as
it is made. -/
def instants (c : Call) (stub : Stub) : List Nat :=
  let alarms := c.timeout.toList ++ c.cancelAfter.toList ++ stub.delay.toList
  c.start :: (alarms.map (c.start + ·)).mergeSort

/-- The answer of a call that has ended. -/
def answer? [Allocator] (c : Call) : Progress → Option Query.Answer
  | .ended _ result => some (Query.answer c.submission.format result)
  | _ => none

end Call

/-- Calls that share a service, and the requests that it received. -/
structure Session where
  stub : Stub
  calls : List (Call × Progress)
  log : List Request

namespace Session

/-- Calls of which none has begun. -/
def ofCalls (stub : Stub) (calls : List Call) : Session :=
  ⟨stub, calls.map fun c => (c, Progress.idle), []⟩

/-- Looks at one of the calls. -/
def look (s : Session) (index now : Nat) : Session :=
  match s.calls[index]? with
  | none => s
  | some (c, p) =>
    let (after, sent) := c.look s.stub now p
    { s with calls := s.calls.set index (c, after), log := s.log ++ sent.toList }

/-- Looks at calls one after the other, each time at an instant. -/
def run (s : Session) (looks : List (Nat × Nat)) : Session :=
  looks.foldl (fun s l => s.look l.1 l.2) s

/-- Adds a call and runs it to its end before anything else happens. -/
def perform (s : Session) (c : Call) : Session :=
  let index := s.calls.length
  { s with calls := s.calls ++ [(c, Progress.idle)] }.run ((c.instants s.stub).map fun now => (index, now))

/-- The instant by which all calls that have ended did so. -/
def now (s : Session) : Nat :=
  s.calls.foldl (fun latest (_, p) => match p with | .ended instant _ => max latest instant | _ => latest) 0

end Session

end DataClient
