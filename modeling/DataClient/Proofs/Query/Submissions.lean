import DataClient.Command.Plan
import DataClient.Proofs.Query.Race

/-!
# One reply, three submissions

The body of a reply is handed back as bytes or as text, depending on the format that a submission
asks for. The text of a body is the same in either mode (`Response.text_read`), so a refusal reads
the same however the query was submitted, and to the client of the resources; and the bytes of a body
are those that were registered, so both submissions for columns decode the same payload.
-/

set_option autoImplicit false

namespace DataClient

namespace Query

variable (sql : String) (submission : Submission) (timeout : Option Nat)

/-- The verb that a submission uses. -/
def verb : Submission → Method
  | .post => .post
  | .get _ => .get

/-- The mode in which a format is handed back. -/
def mode : ResultFormat → BodyMode
  | .arrow => .binary
  | .json => .text

@[simp] theorem request_method : (request sql submission timeout).method = verb submission := by
  rcases submission with _ | _ | _ <;> rfl

@[simp] theorem request_mode : (request sql submission timeout).mode = mode submission.format := by
  rcases submission with _ | _ | _ <;> rfl

@[simp] theorem request_path : (request sql submission timeout).path = "/api/query" := by
  rcases submission with _ | _ | _ <;> rfl

/-- What the bytes of a body are in a format: a payload of columns, or a text of records. -/
def decodeBytes [Allocator] (format : ResultFormat) (body : ByteArray) : Except Crash
    (Except DecodeError Table) :=
  match format with
  | .arrow => (Columnar.decode body).run
  | .json => .ok (Records.decode (Text.ofBytesLossy body))

theorem decode_read [Allocator] (format : ResultFormat) (status : Nat) (contentType : Option String)
    (body : ByteArray) :
    decode ⟨status, contentType, (mode format).read body⟩ format = decodeBytes format body := by
  cases format <;> rfl

/-- A reply that is no success reads the same in every mode and format. -/
theorem classify_refused [Allocator] {format : ResultFormat} {mode : BodyMode} {status : Nat}
    {contentType : Option String} {body : ByteArray} (h : ¬ (200 ≤ status ∧ status ≤ 299)) :
    classify format ⟨status, contentType, mode.read body⟩ =
      .ok (.error (.server status (Text.trim (Text.ofBytesLossy body)))) := by
  have hr : Response.isSuccess ⟨status, contentType, mode.read body⟩ ≠ true :=
    fun hs => h (Response.isSuccess_iff.1 hs)
  rw [classify_of_failure hr, Response.text_read]

end Query

theorem Resource.accepted_refused {mode : BodyMode} {status : Nat} {contentType : Option String}
    {body : ByteArray} (h : ¬ (200 ≤ status ∧ status ≤ 299)) :
    Resource.accepted (.ok ⟨status, contentType, mode.read body⟩) =
      .error (.server status (Text.trim (Text.ofBytesLossy body))) := by
  have hr : Response.isSuccess ⟨status, contentType, mode.read body⟩ ≠ true :=
    fun hs => h (Response.isSuccess_iff.1 hs)
  unfold accepted
  dsimp only
  rw [if_neg hr, Response.text_read]

-- Without a timeout in the request, the delay of the service only postpones the reply.
theorem Stub.deliver_result {s : Stub} {r : Request} (h : r.timeout = none) :
    (s.deliver r).result = s.reply r := by
  unfold deliver
  rw [h]
  cases s.delay <;> rfl

namespace Call

/-- A call without timeout and cancellation. -/
def unlimited (sql : String) (submission : Submission) (start : Nat) : Call :=
  ⟨sql, submission, none, none, start⟩

/-- Performed alone, the call ends with this answer. -/
def EndsWith [Allocator] (c : Call) (stub : Stub) (answer : Query.Answer) : Prop :=
  ∃ instant p, ((Session.ofCalls stub []).perform c).calls = [(c, .ended instant p)] ∧
    c.answer? (.ended instant p) = some answer

theorem endsWith_iff [Allocator] {c : Call} {stub : Stub} {answer : Query.Answer} :
    c.EndsWith stub answer ↔ Query.answer c.submission.format (c.finish stub).2 = answer := by
  unfold EndsWith
  rw [c.calls_perform stub]
  constructor
  · rintro ⟨instant, p, hend, hanswer⟩
    cases hend
    exact Option.some.inj hanswer
  · intro h
    exact ⟨_, _, rfl, congrArg some h⟩

theorem endsWith_unlimited_iff [Allocator] {sql : String} {submission : Submission} {start : Nat}
    {stub : Stub}
    {answer : Query.Answer} :
    (unlimited sql submission start).EndsWith stub answer ↔
      Query.answer submission.format (stub.reply (Query.request sql submission none)) = answer :=
  endsWith_iff

end Call

section Agreement

variable {s : Stub} {status : Nat} {viaGet viaPost : Option String} {body : ByteArray}

/-- What a query receives where the same body is registered for both verbs. -/
theorem exists_reply_eq (hget : s.lookup .get "/api/query" = .response status viaGet body)
    (hpost : s.lookup .post "/api/query" = .response status viaPost body) (sql : String)
    (submission : Submission) (timeout : Option Nat) :
    ∃ contentType, s.reply (Query.request sql submission timeout) =
      .ok ⟨status, contentType, (Query.mode submission.format).read body⟩ := by
  unfold Stub.reply
  rw [Query.request_path, Query.request_method, Query.request_mode]
  cases submission with
  | post => exact ⟨viaPost, by rw [Query.verb, hpost]; rfl⟩
  | get format => exact ⟨viaGet, by rw [Query.verb, hget]; rfl⟩

theorem answer_reply [Allocator] (hget : s.lookup .get "/api/query" = .response status viaGet body)
    (hpost : s.lookup .post "/api/query" = .response status viaPost body) (sql : String)
    (submission : Submission) (timeout : Option Nat) :
    Query.answer submission.format (s.reply (Query.request sql submission timeout)) =
      if 200 ≤ status ∧ status ≤ 299 then Query.ofBody (Query.decodeBytes submission.format body)
      else .ok (.error (.server status (Text.trim (Text.ofBytesLossy body)))) := by
  obtain ⟨contentType, hreply⟩ := exists_reply_eq hget hpost sql submission timeout
  rw [hreply, Query.answer]
  split_ifs with h
  · rw [Query.classify_of_success (Response.isSuccess_iff.2 h), Query.decode_read]
  · exact Query.classify_refused h

/-- **How a query is submitted does not show in its answer.** A reply that is no success is the same
error for all submissions and for the client of the resources, and its body is not decoded. A
successful one is what its bytes decode to: the same for both submissions that ask for columns, and
what its text decodes to for the one that asks for records. The tag of an error says how far the
exchange came. -/
theorem submissions_agree [Allocator]
    (hget : s.lookup .get "/api/query" = .response status viaGet body)
    (hpost : s.lookup .post "/api/query" = .response status viaPost body) :
    (¬ (200 ≤ status ∧ status ≤ 299) →
      (∀ sql submission start, (Call.unlimited sql submission start).EndsWith s
        (.ok (.error (.server status (Text.trim (Text.ofBytesLossy body)))))) ∧
      ∀ (r : Request) (contentType : Option String) (print : Response → Except ClientError String)
        (log : List Request), r.timeout = none →
        s.lookup r.method r.path = .response status contentType body →
        ((Plan.sendFor r print).perform s log).1 =
          .ok (.error (.server status (Text.trim (Text.ofBytesLossy body))))) ∧
    (200 ≤ status ∧ status ≤ 299 → ∀ sql start,
      (Call.unlimited sql .post start).EndsWith s (Query.ofBody (Columnar.decode body).run) ∧
      (Call.unlimited sql (.get .arrow) start).EndsWith s
        (Query.ofBody (Columnar.decode body).run) ∧
      (Call.unlimited sql (.get .json) start).EndsWith s
        (Query.ofBody (.ok (Records.decode (Text.ofBytesLossy body))))) ∧
    (∀ sql submission start t, (Call.unlimited sql submission start).EndsWith s (.ok (.ok t)) ↔
      (200 ≤ status ∧ status ≤ 299) ∧
        Query.decodeBytes submission.format body = .ok (.ok t)) ∧
    ∀ (format : ResultFormat) (x : Except TransportError Response) (e : QueryError),
      Query.answer format x = .ok (.error e) →
        (e.tag = "transport" ↔ ∃ fault, x = .error fault) ∧
        (e.tag = "server" ↔ ∃ r, x = .ok r ∧ ¬ (200 ≤ r.status ∧ r.status ≤ 299)) ∧
        (e.tag = "decode" ↔ ∃ r, x = .ok r ∧ 200 ≤ r.status ∧ r.status ≤ 299) := by
  refine ⟨fun h => ⟨fun sql submission start => ?_, fun r contentType print log htimeout hr => ?_⟩,
    fun h sql start => ⟨?_, ?_, ?_⟩, fun sql submission start t => ?_, fun format x e h => ?_⟩
  · rw [Call.endsWith_unlimited_iff, answer_reply hget hpost, if_neg h]
  · have hdeliver : (s.deliver r).result = .ok ⟨status, contentType, r.mode.read body⟩ := by
      rw [Stub.deliver_result htimeout, Stub.reply, hr, Reply.receive]
    simp only [Plan.sendFor, Plan.perform, Stub.send, hdeliver, Resource.accepted_refused h]
    rfl
  · rw [Call.endsWith_unlimited_iff, answer_reply hget hpost, if_pos h]
    rfl
  · rw [Call.endsWith_unlimited_iff, answer_reply hget hpost, if_pos h]
    rfl
  · rw [Call.endsWith_unlimited_iff, answer_reply hget hpost, if_pos h]
    rfl
  · rw [Call.endsWith_unlimited_iff, answer_reply hget hpost]
    split_ifs with h
    · rw [Query.ofBody_eq_table_iff, and_iff_right h]
    · simp [h]
  · simp only [← Response.isSuccess_iff]
    exact Query.tag_iff h

section

open scoped Allocator.Sized

/-- A reply of bytes that are no text: registered for both verbs, it reads the same for a text of
records and for columns. -/
theorem submissions_agree_malformed :
    let body : ByteArray := ⟨#[0x20, 0xFF, 0x6E, 0x6F, 0x0A]⟩
    let s := (Stub.empty.register .get "/api/query" (.response 503 none body)).register .post
      "/api/query" (.response 503 (some "text/plain") body)
    (s.lookup .get "/api/query" = .response 503 none body ∧
      s.lookup .post "/api/query" = .response 503 (some "text/plain") body) ∧
    (Call.unlimited "SELECT 1" .post 0).EndsWith s (.ok (.error (.server 503 "\uFFFDno"))) ∧
    (Call.unlimited "SELECT 1" (.get .json) 0).EndsWith s
      (.ok (.error (.server 503 "\uFFFDno"))) := by
  intro body s
  have hget : s.lookup .get "/api/query" = .response 503 none body := rfl
  have hpost : s.lookup .post "/api/query" = .response 503 (some "text/plain") body := rfl
  have hends := ((submissions_agree hget hpost).1 (by decide)).1 "SELECT 1"
  have htext : Text.trim (Text.ofBytesLossy body) = "\uFFFDno" := by decide +kernel
  rw [htext] at hends
  exact ⟨⟨hget, hpost⟩, hends .post 0, hends (.get .json) 0⟩

end

end Agreement

end DataClient
