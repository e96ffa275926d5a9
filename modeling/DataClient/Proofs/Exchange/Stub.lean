import DataClient.Exchange.Stub
import Mathlib.Data.List.Forall2
import Mathlib.Data.List.Induction

/-!
# What a stub answers and what it keeps

Replies are registered, the delay is set and requests are sent in any order. The state that this
leads to is the registrations from the last to the first, the delay that was set last, and the
requests in order (`Stub.after_eq`), whatever the requests led to. So a request is answered by the
last registration for its verb and path, or by an empty 404, unless it does not wait as long as the
stub delays its replies (`Stub.answers_exact`).
-/

set_option autoImplicit false

namespace DataClient.Stub

/-! ## Events -/

/-- What is done with a stub. -/
inductive Event
  /-- A response is registered. -/
  | response (method : Method) (path : String) (status : Nat) (contentType : Option String)
      (body : ByteArray)
  /-- A columnar result is registered. -/
  | columns (path : String) (body : ByteArray)
  /-- A JSON document is registered. -/
  | json (method : Method) (path : String) (status : Nat) (j : Json)
  /-- A failure is registered. -/
  | failure (method : Method) (path : String) (e : TransportError)
  /-- The delay of all replies is set. -/
  | delay (milliseconds : Nat)
  /-- A request is sent. -/
  | send (r : Request)

/-- The verb and the path of a registered reply, and the reply. -/
abbrev Registration := (Method × String) × Reply

namespace Event

def registration? : Event → Option Registration
  | .response method path status contentType body =>
    some ((method, path), .response status contentType body)
  | .columns path body => some ((.post, path), .response 200 (some "application/octet-stream") body)
  | .json method path status j =>
    some ((method, path), .response status (some "application/json") j.compact.toUTF8)
  | .failure method path e => some ((method, path), .failure e)
  | _ => none

def delay? : Event → Option Nat
  | .delay milliseconds => some milliseconds
  | _ => none

def request? : Event → Option Request
  | .send r => some r
  | _ => none

end Event

/-- The registrations, the first one first. -/
def registrations (events : List Event) : List Registration := events.filterMap Event.registration?

/-- The delay that was set last. -/
def delayOf (events : List Event) : Option Nat := (events.filterMap Event.delay?).getLast?

/-- The requests, in order. -/
def sent (events : List Event) : List Request := events.filterMap Event.request?

/-- A stub, and the requests that it received. -/
structure Recorded where
  stub : Stub
  log : List Request

/-- One event. A request is in the record as soon as it is sent, before its delivery is due. -/
def Recorded.step (s : Recorded) : Event → Recorded
  | .response method path status contentType body =>
    { s with stub := s.stub.register method path (.response status contentType body) }
  | .columns path body => { s with stub := s.stub.withColumns path body }
  | .json method path status j => { s with stub := s.stub.withJson method path status j }
  | .failure method path e => { s with stub := s.stub.register method path (.failure e) }
  | .delay milliseconds => { s with stub := { s.stub with delay := some milliseconds } }
  | .send r => { s with log := (s.stub.send s.log r).2 }

/-- A stub without replies after a sequence of events. -/
def after (events : List Event) : Recorded := events.foldl Recorded.step ⟨.empty, []⟩

/-- What one event changes: it puts a registration in front, sets the delay, or adds a request. -/
theorem Recorded.step_eq (s : Recorded) (e : Event) :
    s.step e = ⟨⟨e.registration?.toList ++ s.stub.replies, e.delay?.or s.stub.delay⟩,
      s.log ++ e.request?.toList⟩ := by
  cases e <;> simp only [Event.registration?, Event.delay?, Event.request?, Option.toList_none,
    List.append_nil] <;> rfl

/-- **The state is the events seen by their kind.** The induction is from the end, where each event
adds to the state. -/
theorem after_eq (events : List Event) :
    after events = ⟨⟨(registrations events).reverse, delayOf events⟩, sent events⟩ := by
  induction events using List.reverseRecOn with
  | nil => rfl
  | append_singleton events e ih =>
    have hstep : after (events ++ [e]) = (after events).step e := List.foldl_concat ..
    rw [hstep, ih, Recorded.step_eq]
    unfold registrations delayOf sent
    rw [List.filterMap_append, List.filterMap_append, List.filterMap_append, List.reverse_append,
      List.getLast?_append]
    cases e <;> rfl

/-! ## Replies -/

/-- The reply to a verb and a path among registrations: that of the last one for them, or an empty
404. -/
inductive LastFor (registered : List Registration) (key : Method × String) : Reply → Prop
  | registered {before after : List Registration} {reply : Reply}
    (hsplit : registered = before ++ (key, reply) :: after) (hafter : ∀ g ∈ after, g.1 ≠ key) :
    LastFor registered key reply
  | unknown (hnone : ∀ g ∈ registered, g.1 ≠ key) :
    LastFor registered key (.response 404 none ByteArray.empty)

/-- What arrives of a reply: the bytes as they were registered, or the text that they are. -/
inductive Receives : Reply → BodyMode → Except TransportError Response → Prop
  | binary (status : Nat) (contentType : Option String) (body : ByteArray) :
    Receives (.response status contentType body) .binary (.ok ⟨status, contentType, .binary body⟩)
  | text (status : Nat) (contentType : Option String) (body : ByteArray) :
    Receives (.response status contentType body) .text
      (.ok ⟨status, contentType, .text (Text.ofBytesLossy body)⟩)
  | failure (e : TransportError) (mode : BodyMode) : Receives (.failure e) mode (.error e)

/-- What a request leads to where replies are registered and delayed. -/
inductive Answers (registered : List Registration) (delay : Option Nat) (r : Request) :
    Delivery → Prop
  /-- The request does not wait as long as the replies are delayed. -/
  | cutOff {wait timeout : Nat} (hdelay : delay = some wait) (htimeout : r.timeout = some timeout)
    (hshort : timeout < wait) : Answers registered delay r ⟨timeout, .error .timeout⟩
  | replied {reply : Reply} {result : Except TransportError Response}
    (hwaits : ∀ wait timeout, delay = some wait → r.timeout = some timeout → wait ≤ timeout)
    (hreply : LastFor registered (r.method, r.path) reply) (hresult : Receives reply r.mode result) :
    Answers registered delay r ⟨delay.getD 0, result⟩

theorem receives_receive (reply : Reply) (mode : BodyMode) :
    Receives reply mode (reply.receive mode) := by
  cases reply with
  | response status contentType body =>
    cases mode with
    | text => exact .text status contentType body
    | binary => exact .binary status contentType body
  | failure e => exact .failure e mode

variable {s : Stub} {registered : List Registration}

/-- A look-up finds the last registration, since the last one stands first. -/
theorem lastFor_lookup (hreplies : s.replies = registered.reverse) (method : Method)
    (path : String) : LastFor registered (method, path) (s.lookup method path) := by
  unfold lookup
  rw [hreplies]
  cases hfind : registered.reverse.find? (·.1 == (method, path)) with
  | none =>
    refine .unknown fun g hg => ?_
    simpa using List.find?_eq_none.1 hfind g (List.mem_reverse.2 hg)
  | some g =>
    obtain ⟨hkey, newer, older, hsplit, hnewer⟩ := List.find?_eq_some_iff_append.1 hfind
    obtain ⟨key, reply⟩ := g
    obtain rfl : key = (method, path) := by simpa using hkey
    refine @LastFor.registered _ _ older.reverse newer.reverse _ ?_ fun g hg => ?_
    · rw [← List.reverse_reverse registered, hsplit]
      simp
    · simpa using hnewer g (List.mem_reverse.1 hg)

theorem answers_deliver (hreplies : s.replies = registered.reverse) (r : Request) :
    Answers registered s.delay r (s.deliver r) := by
  have hreply := lastFor_lookup hreplies r.method r.path
  have hresult := receives_receive (s.lookup r.method r.path) r.mode
  unfold deliver
  cases hdelay : s.delay with
  | none => exact .replied nofun hreply hresult
  | some wait =>
    cases htimeout : r.timeout with
    | none => exact .replied (by simp [htimeout]) hreply hresult
    | some timeout =>
      dsimp only
      split
      · exact .cutOff rfl htimeout ‹_›
      · refine .replied (fun wait' timeout' hwait' htimeout' => ?_) hreply hresult
        cases hwait'
        cases htimeout.symm.trans htimeout'
        omega

/-- Requests that are sent one after the other have each what they lead to alone, and all are kept. -/
theorem sendAll_eq (s : Stub) (log requests : List Request) :
    s.sendAll log requests = (requests.map s.deliver, log ++ requests) := by
  induction requests generalizing log with
  | nil => simp [sendAll]
  | cons r rest ih => simp [sendAll, send, ih]

/-- Registrations for other verbs and paths do not matter to a look-up. -/
theorem lookup_eq_of_filter {s' : Stub} {method : Method} {path : String}
    (h : s'.replies.filter (·.1 == (method, path)) = s.replies.filter (·.1 == (method, path))) :
    s'.lookup method path = s.lookup method path := by
  unfold lookup
  rw [← List.head?_filter, ← List.head?_filter, h]

/-- **A stub answers from what was registered last and keeps every request.** After any sequence of
events the record holds all requests sent so far, in order and as they were, whatever they led to.
Requests sent from then on are each answered by the last registration for their verb and path, or by
an empty 404 if there is none, after the delay that was set last: with the registered bytes, or with
the text that these are, under the registered status and media type. Only a request that does not
wait that long is cut off, after its own timeout. Registrations for other verbs and paths do not
matter. -/
theorem answers_exact (events : List Event) (requests : List Request) :
    (after events).log = sent events ∧
    (∃ deliveries,
      (after events).stub.sendAll (after events).log requests
        = (deliveries, sent (events ++ requests.map .send)) ∧
      List.Forall₂ (Answers (registrations events) (delayOf events)) requests deliveries) ∧
    ∀ (events' : List Event) (r : Request), delayOf events' = delayOf events →
      (registrations events').filter (·.1 == (r.method, r.path))
        = (registrations events).filter (·.1 == (r.method, r.path)) →
      (after events').stub.deliver r = (after events).stub.deliver r := by
  have hsent : sent (events ++ requests.map .send) = sent events ++ requests := by
    have hrequests : (requests.map Event.send).filterMap Event.request? = requests := by
      rw [List.filterMap_map]
      exact List.filterMap_some
    unfold sent
    rw [List.filterMap_append, hrequests]
  let s : Stub := ⟨(registrations events).reverse, delayOf events⟩
  rw [after_eq events]
  refine ⟨rfl, ⟨requests.map s.deliver, ?_, ?_⟩, fun events' r hdelay hfilter => ?_⟩
  · rw [sendAll_eq, hsent]
  · rw [List.forall₂_map_right_iff, List.forall₂_same]
    exact fun r _ => answers_deliver (s := s) rfl r
  · rw [after_eq events', hdelay]
    unfold deliver reply
    rw [lookup_eq_of_filter (s := s)]
    dsimp only [s]
    rw [List.filter_reverse, List.filter_reverse, hfilter]

/-- A reply that was replaced, and replies for another verb and another path, do not show in what a
request leads to; neither does a request before it, which was cut off and is kept all the same. -/
theorem answers_exact_replaced :
    let r := (Request.of .get ["a"]).withTimeout (some 5)
    let early := (Request.of .get ["a"]).withTimeout (some 4)
    let events : List Event := [.response .get "/a" 200 none "old".toUTF8, .delay 5, .send early,
      .columns "/a" "columns".toUTF8, .response .get "/a" 418 (some "text/plain") ⟨#[0x6F, 0xFF]⟩,
      .failure .get "/b" .cancelled]
    let fewer : List Event := [.delay 5, .response .get "/a" 200 none "old".toUTF8,
      .response .get "/a" 418 (some "text/plain") ⟨#[0x6F, 0xFF]⟩]
    (after events).log = [early] ∧
      (after events).stub.deliver r = (after fewer).stub.deliver r ∧
      (after fewer).stub.deliver r = ⟨5, .ok ⟨418, some "text/plain", .text "o\uFFFD"⟩⟩ := by
  intro r early events fewer
  obtain ⟨hlog, -, hothers⟩ := answers_exact events []
  have htext : Text.ofBytesLossy ⟨#[0x6F, 0xFF]⟩ = "o\uFFFD" := by decide +kernel
  refine ⟨hlog, (hothers fewer r rfl ?_).symm, ?_⟩
  · rfl
  · rw [← htext]
    rfl

end DataClient.Stub
