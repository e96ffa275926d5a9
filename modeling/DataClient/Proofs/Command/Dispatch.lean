import DataClient.Command.Run
import DataClient.Proofs.Query.Answer
import DataClient.Proofs.Query.Delivery
import DataClient.Proofs.Table.Crashes

/-!
# What a command sends and how it ends

A command is rejected before anything is sent, it has nothing to send, or it sends one request and
ends with what is made of the exchange (`dispatch_exact`). What it asks for and what it prints of a
response are relations of their own, one rule for each thing that can be done (`Command.Asks`,
`Command.Prints`). Opening a path is the command that the path stands for (`Command.Opens`).

An exchange is any function from a request to its outcome. That is enough for every service, since
no command asks it twice (`Plan.through`).
-/

set_option autoImplicit false

namespace DataClient

/-! ## Plans -/

/-- Carries a plan out: how it ends, and the requests it sent. -/
def Plan.through (exchange : Request → Except TransportError Response) :
    Plan → Finish × List Request
  | .done result => (.ok result, [])
  | .send r finish => (finish (exchange r), [r])

variable {exchange : Request → Except TransportError Response}

/-- Prepared replies are one kind of exchange. -/
theorem Plan.perform_eq (p : Plan) (stub : Stub) (log : List Request) :
    p.perform stub log =
      ((p.through fun r => (stub.deliver r).result).1,
        log ++ (p.through fun r => (stub.deliver r).result).2) := by
  cases p with
  | done result => rw [perform, through, List.append_nil]
  | send r finish => rfl

/-- A link to a service is another. -/
theorem Plan.over_eq [Web.DomainReader] (p : Plan) (remote : Remote) (link : Link Id) :
    p.over remote link = (p.through fun r => remote.send link r).1 := by
  cases p <;> rfl

/-- No plan sends two requests. -/
theorem Plan.length_through_le (p : Plan) : (p.through exchange).2.length ≤ 1 := by
  cases p with
  | done result => exact Nat.zero_le 1
  | send r finish => exact Nat.le_refl 1

/-! ## Actions on resources -/

namespace Resource

variable {α : Type}

/-- The text of the item that an action carries. -/
def payload? : Action → Option String
  | .create json => some json
  | .update _ json => some json
  | _ => none

/-- An action carries a text that is no item. -/
def Rejected (reader : Json.Reader α) (a : Action) : Prop :=
  ∃ json ∈ payload? a, ∀ item, Json.read reader json ≠ .ok item

/-- What an action asks for, below the path of the collection. -/
inductive Asks (collection : List String) (reader : Json.Reader α) (toJson : α → Json) :
    Action → Request → Prop
  | list : Asks collection reader toJson .list (.of .get collection)
  | get (id : Int64) :
    Asks collection reader toJson (.get id) (.of .get (collection ++ [toString id.toInt]))
  | create {json : String} {item : α} (h : Json.read reader json = .ok item) :
    Asks collection reader toJson (.create json)
      ((Request.of .post collection).withBody (.json (toJson item).sorted))
  | update {json : String} {item : α} (id : Int64) (h : Json.read reader json = .ok item) :
    Asks collection reader toJson (.update id json)
      ((Request.of .put (collection ++ [toString id.toInt])).withBody (.json (toJson item).sorted))
  | delete (id : Int64) :
    Asks collection reader toJson (.delete id) (.of .delete (collection ++ [toString id.toInt]))

/-- What an action prints of a response that was accepted. -/
inductive Prints (reader : Json.Reader α) (render : List α → String) (noun : String) :
    Action → Response → String → Prop
  | list {r : Response} {items : List α}
    (h : Json.read (Json.Reader.list reader) r.text = .ok items) :
    Prints reader render noun .list r (render items)
  | get {r : Response} {item : α} (id : Int64) (h : Json.read reader r.text = .ok item) :
    Prints reader render noun (.get id) r (render [item])
  | create {r : Response} {item : α} (json : String) (h : Json.read reader r.text = .ok item) :
    Prints reader render noun (.create json) r (render [item])
  | update {r : Response} {item : α} (id : Int64) (json : String)
    (h : Json.read reader r.text = .ok item) :
    Prints reader render noun (.update id json) r (render [item])
  | delete {r : Response} (id : Int64) :
    Prints reader render noun (.delete id) r ("Deleted " ++ noun ++ " " ++ toString id.toInt ++ "\n")

end Resource

/-! ## What commands ask for and print -/

/-- The command that a path stands for. -/
inductive Command.Opens (path : String) : Option String → Command → Prop
  | metrics {sql : Option String} (h : Route.navigate path = some .metrics) :
    Opens path sql (.metrics .list)
  | tables {sql : Option String} (h : Route.navigate path = some .tables) :
    Opens path sql (.tables (.basic .list))
  | query {sql : String} (h : Route.navigate path = some .query) :
    Opens path (some sql) (.query ⟨some sql, none, none⟩)

namespace Command

/-- What makes a command no use: an item that is none, a query without a readable text, or a path
without a view. -/
inductive Rejected (content : Except ReadFault ByteArray) : Command → Prop
  | query {q : QueryCommand} (h : ∀ sql submission, ¬ Submits content sql (.query q) submission) :
    Rejected content (.query q)
  | metrics {a : Action} (h : Resource.Rejected Metric.reader a) : Rejected content (.metrics a)
  | tables {a : Action} (h : Resource.Rejected TableDefinition.reader a) :
    Rejected content (.tables (.basic a))
  | configs {a : Action} (h : Resource.Rejected Configuration.reader a) :
    Rejected content (.configs (.basic a))
  | opens {path : String} {sql : Option String} (h : Route.navigate path = none) :
    Rejected content (.open path sql)

/-- The view of queries is opened without a text. -/
inductive Idle : Command → Prop
  | opens {path : String} (h : Route.navigate path = some .query) : Idle (.open path none)

/-- What a command asks for. -/
inductive Asks (content : Except ReadFault ByteArray) : Command → Request → Prop
  | query {q : QueryCommand} {sql : String} {submission : Submission} {r : Request}
    (h : Submits content sql (.query q) submission) (hpath : r.segments = ["api", "query"])
    (hr : r.Carries sql submission) : Asks content (.query q) r
  | metrics {a : Action} {r : Request}
    (h : Resource.Asks ["api", "metrics"] Metric.reader Metric.toJson a r) :
    Asks content (.metrics a) r
  | tables {a : Action} {r : Request}
    (h : Resource.Asks ["api", "tables"] TableDefinition.reader TableDefinition.toJson a r) :
    Asks content (.tables (.basic a)) r
  | byName (name : String) :
    Asks content (.tables (.byName name)) (.of .get ["api", "tables", "byName", name])
  | configs {a : Action} {r : Request}
    (h : Resource.Asks ["api", "configurations"] Configuration.reader Configuration.toJson a r) :
    Asks content (.configs (.basic a)) r
  | preview (id : Int64) : Asks content (.configs (.preview id))
      (.of .get ["api", "configurations", "preview", toString id.toInt])
  | opens {path : String} {sql : Option String} {c : Command} {r : Request}
    (h : Opens path sql c) (hr : Asks content c r) : Asks content (.open path sql) r

/-- What a command prints of a response that was accepted. -/
inductive Prints [Allocator] (format : OutputFormat) : Command → Response → String → Prop
  | query {q : QueryCommand} {r : Response} {t : Table}
    (h : Query.decode r q.submission.format = .ok (.ok t)) :
    Prints format (.query q) r (t.render format)
  | metrics {a : Action} {r : Response} {text : String}
    (h : Resource.Prints Metric.reader (Metric.render · format) "metric" a r text) :
    Prints format (.metrics a) r text
  | tables {a : Action} {r : Response} {text : String}
    (h : Resource.Prints TableDefinition.reader (TableDefinition.render · format) "table" a r text) :
    Prints format (.tables (.basic a)) r text
  | byName {r : Response} {item : TableDefinition} (name : String)
    (h : Json.read TableDefinition.reader r.text = .ok item) :
    Prints format (.tables (.byName name)) r (TableDefinition.render [item] format)
  | configs {a : Action} {r : Response} {text : String}
    (h : Resource.Prints Configuration.reader (Configuration.render · format) "configuration" a r
      text) :
    Prints format (.configs (.basic a)) r text
  | preview {r : Response} (id : Int64) :
    Prints format (.configs (.preview id)) r (Plan.endLine r.text)
  | opens {path : String} {sql : Option String} {c : Command} {r : Response} {text : String}
    (h : Opens path sql c) (hr : Prints format c r text) : Prints format (.open path sql) r text

/-- Decoding the result of a command's query crashes. -/
inductive Crashes [Allocator] : Command → Response → Crash → Prop
  | query {q : QueryCommand} {r : Response} {crash : Crash}
    (h : Query.decode r q.submission.format = .error crash) : Crashes (.query q) r crash
  | opens {path : String} {sql : Option String} {c : Command} {r : Response} {crash : Crash}
    (h : Opens path sql c) (hr : Crashes c r crash) : Crashes (.open path sql) r crash

/-- Whether a command submits a query. -/
def isQuery : Command → Bool
  | .query _ => true
  | .open path _ => Route.navigate path = some .query
  | _ => false

end Command

/-! ## How an exchange is concluded -/

/-- What an exchange is concluded with: the errors of its stages, what is printed of the body of an
accepted response, and where reading that body crashes. -/
structure Conclusion where
  transport : TransportError → ClientError
  server : Nat → String → ClientError
  unread : ClientError → Prop
  prints : Response → String → Prop
  crashes : Response → Crash → Prop

/-- The ends of an exchange. -/
inductive Conclusion.Ends (k : Conclusion) : Except TransportError Response → Finish → Prop
  | noResponse (e : TransportError) : Ends k (.error e) (.ok (.error (k.transport e)))
  | refused {r : Response} (h : r.isSuccess ≠ true) :
    Ends k (.ok r) (.ok (.error (k.server r.status (Text.trim r.text))))
  | printed {r : Response} {text : String} (h : r.isSuccess = true) (hprints : k.prints r text) :
    Ends k (.ok r) (.ok (.ok text))
  | unread {r : Response} {e : ClientError} (h : r.isSuccess = true)
    (hprints : ∀ text, ¬ k.prints r text) (he : k.unread e) : Ends k (.ok r) (.ok (.error e))
  | crashed {r : Response} {crash : Crash} (h : r.isSuccess = true)
    (hprints : ∀ text, ¬ k.prints r text) (hcrash : k.crashes r crash) : Ends k (.ok r) (.error crash)

/-- Something is printed exactly of an accepted response with the body that was expected. -/
theorem Conclusion.Ends.printed_iff {k : Conclusion} {x : Except TransportError Response}
    {finish : Finish} (h : k.Ends x finish) :
    (∃ text, finish = .ok (.ok text)) ↔
      ∃ r text, x = .ok r ∧ r.isSuccess = true ∧ k.prints r text := by
  cases h with
  | noResponse e =>
    refine ⟨fun ⟨_, h⟩ => (by cases h), fun ⟨_, _, h, _⟩ => (by cases h)⟩
  | refused hr =>
    refine ⟨fun ⟨_, h⟩ => (by cases h), ?_⟩
    rintro ⟨_, _, h, hs, -⟩
    cases h
    exact absurd hs hr
  | printed hr hprints => exact ⟨fun _ => ⟨_, _, rfl, hr, hprints⟩, fun _ => ⟨_, rfl⟩⟩
  | unread hr hprints he =>
    refine ⟨fun ⟨_, h⟩ => (by cases h), ?_⟩
    rintro ⟨_, text, h, -, hp⟩
    cases h
    exact absurd hp (hprints text)
  | crashed hr hprints hcrash =>
    refine ⟨fun ⟨_, h⟩ => (by cases h), ?_⟩
    rintro ⟨_, text, h, -, hp⟩
    cases h
    exact absurd hp (hprints text)

/-- The conclusion of an action: its errors are those of the client itself, and nothing crashes. -/
def Resource.conclusion (prints : Response → String → Prop) : Conclusion :=
  ⟨.transport, .server, fun e => ∃ why, e = .decode why, prints, fun _ _ => False⟩

/-- The conclusion of a query, whose errors are wrapped. -/
def Query.conclusion (prints : Response → String → Prop) (crashes : Response → Crash → Prop) :
    Conclusion :=
  ⟨fun e => .query (.transport e), fun status text => .query (.server status text),
    fun e => ∃ fault, e = .query (.decode fault), prints, crashes⟩

/-- The conclusion of a command. -/
def Command.conclusion [Allocator] (format : OutputFormat) (c : Command) : Conclusion :=
  if c.isQuery then Query.conclusion (c.Prints format) c.Crashes
  else Resource.conclusion (c.Prints format)

/-! ## Plans for resources -/

namespace Resource

variable {α : Type}

/-- A request is concluded with what `print` makes of the accepted response. -/
theorem ends_sendFor {prints : Response → String → Prop} {print : Response → Except ClientError String}
    (hprint : ∀ r text, print r = .ok text ↔ prints r text)
    (herror : ∀ r e, print r = .error e → ∃ why, e = .decode why)
    (x : Except TransportError Response) :
    (conclusion prints).Ends x (.ok (do print (← accepted x))) := by
  cases x with
  | error e => exact .noResponse e
  | ok r =>
    unfold accepted
    by_cases hr : r.isSuccess = true
    · dsimp only
      rw [if_pos hr]
      cases hp : print r with
      | ok text =>
        have hbind : (do print (← (Except.ok r : Except ClientError Response))) = .ok text := hp
        rw [hbind]
        exact .printed hr ((hprint r text).1 hp)
      | error e =>
        have hbind : (do print (← (Except.ok r : Except ClientError Response))) = .error e := hp
        rw [hbind]
        refine .unread hr (fun text h => ?_) (herror r e hp)
        rw [(hprint r text).2 h] at hp
        cases hp
    · dsimp only
      rw [if_neg hr]
      exact .refused hr

theorem ofResponse_eq_ok {reader : Json.Reader α} {r : Response} {a : α} :
    ofResponse reader r = .ok a ↔ Json.read reader r.text = .ok a := by
  unfold ofResponse
  cases Json.read reader r.text with
  | ok b => exact ⟨fun h => (by cases h; rfl), fun h => (by cases h; rfl)⟩
  | error e => exact ⟨fun h => (by cases h), fun h => (by cases h)⟩

theorem ofResponse_eq_error {reader : Json.Reader α} {r : Response} {e : ClientError}
    (h : ofResponse reader r = .error e) : ∃ why, e = .decode why := by
  unfold ofResponse at h
  split at h
  · cases h
  · cases h
    exact ⟨_, rfl⟩

/-- What is printed of a body that is read as `read` says. -/
theorem read_then_print {β : Type} {reader : Json.Reader β} {show' : β → String} {r : Response} :
    (∀ text, (do return show' (← ofResponse reader r) : Except ClientError String) = .ok text ↔
      ∃ b, Json.read reader r.text = .ok b ∧ show' b = text) ∧
    ∀ e, (do return show' (← ofResponse reader r) : Except ClientError String) = .error e →
      ∃ why, e = .decode why := by
  constructor
  · intro text
    rw [Outcome.bind_eq_ok]
    simp only [ofResponse_eq_ok]
    constructor
    · rintro ⟨b, hb, h⟩
      cases h
      exact ⟨b, hb, rfl⟩
    · rintro ⟨b, hb, rfl⟩
      exact ⟨b, hb, rfl⟩
  · intro e h
    rcases Outcome.bind_eq_error.1 h with h | ⟨b, _, h⟩
    · exact ofResponse_eq_error h
    · cases h

end Resource

/-- The plan sends `r` and concludes the exchange. -/
def Plan.Concludes (k : Conclusion) (r : Request) (p : Plan) : Prop :=
  ∃ finish, p = .send r finish ∧ ∀ x, k.Ends x (finish x)

namespace Resource

variable {α : Type} {k : Kind α} {format : OutputFormat} {r : Request}

theorem concludes_sendFor {prints : Response → String → Prop}
    {print : Response → Except ClientError String}
    (hprint : ∀ r text, print r = .ok text ↔ prints r text)
    (herror : ∀ r e, print r = .error e → ∃ why, e = .decode why) :
    (Plan.sendFor r print).Concludes (conclusion prints) r :=
  ⟨_, rfl, ends_sendFor hprint herror⟩

theorem concludes_sendForItem {prints : Response → String → Prop}
    (h : ∀ r text, (∃ item, Json.read k.reader r.text = .ok item ∧ k.render [item] format = text) ↔
      prints r text) :
    (Plan.sendForItem k format r).Concludes (conclusion prints) r :=
  concludes_sendFor (fun r text => (read_then_print.1 text).trans (h r text))
    fun _ e => read_then_print.2 e

theorem concludes_unread {prints : Response → String → Prop} {show' : Response → String}
    (h : ∀ r text, show' r = text ↔ prints r text) :
    (Plan.sendFor r fun response => .ok (show' response)).Concludes (conclusion prints) r := by
  refine concludes_sendFor (fun r text => ?_) fun _ _ h => (by cases h)
  rw [← h]
  exact ⟨fun h => (by cases h; rfl), fun h => h ▸ rfl⟩

theorem Kind.ofPayload_eq_ok {json : String} {item : α} :
    k.ofPayload json = .ok item ↔ Json.read k.reader json = .ok item := by
  unfold ofPayload
  cases Json.read k.reader json with
  | ok b => exact ⟨fun h => (by cases h; rfl), fun h => (by cases h; rfl)⟩
  | error e => exact ⟨fun h => (by cases h), fun h => (by cases h)⟩

theorem Kind.ofPayload_eq_error {json : String} {e : ClientError} (h : k.ofPayload json = .error e) :
    ∃ why, e = .input why := by
  unfold ofPayload at h
  split at h
  · cases h
  · cases h
    exact ⟨_, rfl⟩

theorem sendItem_cases {prints : Response → String → Prop} {json : String}
    (h : ∀ r text, (∃ item, Json.read k.reader r.text = .ok item ∧ k.render [item] format = text) ↔
      prints r text) :
    (∃ item, Json.read k.reader json = .ok item ∧
      (Plan.sendItem k format r json).Concludes (conclusion prints) (k.carrying r item)) ∨
    ((∀ item, Json.read k.reader json ≠ .ok item) ∧
      ∃ why, Plan.sendItem k format r json = .done (.error (.input why))) := by
  unfold Plan.sendItem
  cases hp : k.ofPayload json with
  | ok item => exact .inl ⟨item, Kind.ofPayload_eq_ok.1 hp, concludes_sendForItem h⟩
  | error e =>
    obtain ⟨why, rfl⟩ := Kind.ofPayload_eq_error hp
    refine .inr ⟨fun item hitem => ?_, why, rfl⟩
    rw [Kind.ofPayload_eq_ok.2 hitem] at hp
    cases hp

theorem not_rejected_of_payload? {reader : Json.Reader α} {a : Action} (h : payload? a = none) :
    ¬ Rejected reader a := by
  rintro ⟨json, hjson, -⟩
  rw [h] at hjson
  cases hjson

theorem rejected_iff_of_payload? {reader : Json.Reader α} {a : Action} {json : String}
    (h : payload? a = some json) : Rejected reader a ↔ ∀ item, Json.read reader json ≠ .ok item := by
  constructor
  · rintro ⟨_, hjson, hnone⟩
    rw [h] at hjson
    cases hjson
    exact hnone
  · exact fun hnone => ⟨json, h, hnone⟩

/-- **An action is rejected, or it sends the request that it asks for.** -/
theorem ofAction_cases (k : Kind α) (format : OutputFormat) (a : Action) :
    (Rejected k.reader a ∧ ∃ why, Plan.ofAction k format a = .done (.error (.input why))) ∨
    (¬ Rejected k.reader a ∧ ∃ r, Asks k.path k.reader k.toJson a r ∧
      (Plan.ofAction k format a).Concludes
        (conclusion (Prints k.reader (k.render · format) k.noun a)) r) := by
  cases a with
  | list =>
    refine .inr ⟨not_rejected_of_payload? rfl, _, .list, concludes_sendFor (fun r text => ?_)
      fun _ e => read_then_print.2 e⟩
    refine (read_then_print.1 text).trans ⟨?_, fun h => ?_⟩
    · rintro ⟨items, h, rfl⟩
      exact .list h
    · cases h with | list h => exact ⟨_, h, rfl⟩
  | get id =>
    refine .inr ⟨not_rejected_of_payload? rfl, _, .get id, concludes_sendForItem fun r text =>
      ⟨?_, fun h => ?_⟩⟩
    · rintro ⟨item, h, rfl⟩
      exact .get id h
    · cases h with | get _ h => exact ⟨_, h, rfl⟩
  | create json =>
    rw [rejected_iff_of_payload? (a := .create json) rfl]
    refine (sendItem_cases fun r text => ⟨?_, fun h => ?_⟩).symm.imp id
      fun ⟨item, hread, h⟩ => ⟨fun hnone => hnone item hread, _, .create hread, h⟩
    · rintro ⟨item, h, rfl⟩
      exact .create json h
    · cases h with | create _ h => exact ⟨_, h, rfl⟩
  | update id json =>
    rw [rejected_iff_of_payload? (a := .update id json) rfl]
    refine (sendItem_cases fun r text => ⟨?_, fun h => ?_⟩).symm.imp (fun h => h)
      fun ⟨item, hread, h⟩ => ⟨fun hnone => hnone item hread, _, .update id hread, h⟩
    · rintro ⟨item, h, rfl⟩
      exact .update id json h
    · cases h with | update _ _ h => exact ⟨_, h, rfl⟩
  | delete id =>
    refine .inr ⟨not_rejected_of_payload? rfl, _, .delete id, concludes_unread fun r text =>
      ⟨?_, fun h => ?_⟩⟩
    · rintro rfl
      exact .delete id
    · cases h
      rfl

end Resource

/-! ## Plans for queries -/

theorem SqlSource.eq_held_of_read {source : SqlSource} {content : Except ReadFault ByteArray}
    {sql : String} (h : source.read content = .ok sql)
    (hsource : source = .stdin ∨ ∃ path, source = .file path) : content = .ok sql.toUTF8 := by
  unfold read at h
  extract_lets text at h
  have htext : text = .ok sql := by
    rcases hsource with rfl | ⟨path, rfl⟩ <;> exact Outcome.mapError_eq_ok.1 h
  obtain ⟨bytes, rfl, hbytes⟩ := Outcome.bind_eq_ok.1 htext
  split at hbytes
  · rename_i s hs
    cases hbytes
    rw [Text.ofBytes?, String.fromUTF8?] at hs
    split at hs <;> cases hs
    rfl
  · cases hbytes

theorem SqlSource.input_of_read {source : SqlSource} {content : Except ReadFault ByteArray}
    {e : ClientError} (h : source.read content = .error e) : ∃ why, e = .input why := by
  cases source with
  | given sql => cases h
  | missing =>
    cases h
    exact ⟨_, rfl⟩
  | stdin | file =>
    unfold read at h
    obtain ⟨_, -, rfl⟩ := Outcome.mapError_eq_error.1 h
    exact ⟨_, rfl⟩

/-- What the source of a query yields is the text that its command submits. -/
theorem QueryCommand.submits_of_read {q : QueryCommand} {content : Except ReadFault ByteArray}
    {sql : String} (h : q.source.read content = .ok sql) :
    Command.Submits content sql (.query q) q.submission := by
  cases hsql : q.sql with
  | some text =>
    rw [read_given hsql] at h
    cases h
    exact .given hsql
  | none =>
    cases hfile : q.file with
    | none =>
      have hsource : q.source = .missing := by unfold source; rw [hsql, hfile]
      rw [hsource] at h
      cases h
    | some path =>
      exact .held hsql hfile (SqlSource.eq_held_of_read h
        ((source_of_file hsql hfile).imp_right fun h => ⟨path, h⟩))

/-- A query is concluded with what the body of the response decodes to. -/
theorem Query.concludes_ofQuery [Allocator] {prints : Response → String → Prop}
    {crashes : Response → Crash → Prop} {format : OutputFormat} {submission : Submission}
    (hprints : ∀ r text, prints r text ↔
      ∃ t, decode r submission.format = .ok (.ok t) ∧ t.render format = text)
    (hcrashes : ∀ r c, crashes r c ↔ decode r submission.format = .error c) (sql : String) :
    (Plan.ofQuery sql submission format).Concludes (conclusion prints crashes)
      (request sql submission none) := by
  refine ⟨_, rfl, fun x => ?_⟩
  cases x with
  | error e => exact .noResponse e
  | ok r =>
    by_cases hr : r.isSuccess = true
    · rw [answer, classify_of_success hr]
      cases hd : decode r submission.format with
      | error crash =>
        refine .crashed hr (fun text h => ?_) ((hcrashes r crash).2 hd)
        obtain ⟨t, ht, -⟩ := (hprints r text).1 h
        cases hd.symm.trans ht
      | ok result =>
        cases result with
        | error fault =>
          refine .unread hr (fun text h => ?_) ⟨fault, rfl⟩
          obtain ⟨t, ht, -⟩ := (hprints r text).1 h
          cases hd.symm.trans ht
        | ok t => exact .printed hr ((hprints r _).2 ⟨t, hd, rfl⟩)
    · rw [answer, classify_of_failure hr]
      exact .refused hr

/-! ## Commands -/

namespace Command

variable {content : Except ReadFault ByteArray} {format : OutputFormat}

/-- How a command is carried out: it is rejected, it is idle, or it sends what it asks for. -/
inductive Course [Allocator] (format : OutputFormat) (content : Except ReadFault ByteArray)
    (c : Command) : Plan → Prop
  | rejected (why : String) (h : c.Rejected content) (hidle : ¬ c.Idle) :
    Course format content c (.done (.error (.input why)))
  | idle (text : String) (h : c.Idle) (haccepted : ¬ c.Rejected content) :
    Course format content c (.done (.ok text))
  | sent {r : Request} {p : Plan} (haccepted : ¬ c.Rejected content) (hidle : ¬ c.Idle)
    (h : c.Asks content r) (hp : p.Concludes (c.conclusion format) r) : Course format content c p

/-- An action runs its course as a command if the command is rejected, asks and prints like it. -/
theorem course_ofAction [Allocator] {α : Type} (k : Resource.Kind α) {c : Command} {a : Action}
    (hidle : ¬ c.Idle) (hquery : c.isQuery = false)
    (hrejected : c.Rejected content ↔ Resource.Rejected k.reader a)
    (hasks : ∀ r, Resource.Asks k.path k.reader k.toJson a r → c.Asks content r)
    (hprints : ∀ r text, Resource.Prints k.reader (k.render · format) k.noun a r text ↔
      c.Prints format r text) : c.Course format content (Plan.ofAction k format a) := by
  -- Only a query wraps its errors, so the two conclusions differ at most in what they print.
  have hconclusion : c.conclusion format
      = Resource.conclusion (Resource.Prints k.reader (k.render · format) k.noun a) := by
    rw [conclusion, if_neg (Bool.not_eq_true _ ▸ hquery)]
    congr
    funext r text
    exact propext (hprints r text).symm
  rcases Resource.ofAction_cases k format a with ⟨h, why, hp⟩ | ⟨h, r, hr, hp⟩
  · rw [hp]
    exact .rejected why (hrejected.2 h) hidle
  · exact .sent (mt hrejected.1 h) hidle (hasks r hr) (hconclusion ▸ hp)

theorem concludes_of_iff [Allocator] {prints : Response → String → Prop} {c : Command} {r : Request} {p : Plan}
    (hquery : c.isQuery = false) (hprints : ∀ r text, prints r text ↔ c.Prints format r text)
    (h : p.Concludes (Resource.conclusion prints) r) : p.Concludes (c.conclusion format) r := by
  have heq : prints = c.Prints format := funext fun r => funext fun text => propext (hprints r text)
  rw [conclusion, hquery, if_neg Bool.false_ne_true, ← heq]
  exact h

theorem Submits.read_eq {q : QueryCommand} {sql : String} {submission : Submission}
    (h : Submits content sql (.query q) submission) :
    q.source.read content = .ok sql ∧ submission = q.submission := by
  cases h with
  | given h => exact ⟨QueryCommand.read_given h content, rfl⟩
  | held hsql hfile h =>
    rw [h]
    exact ⟨QueryCommand.read_held hsql hfile, rfl⟩

theorem course_query [Allocator] (q : QueryCommand) :
    (query q).Course format content (Plan.ofCommand format content (.query q)) := by
  have hidle : ¬ (query q).Idle := fun h => by cases h
  rw [Plan.ofCommand]
  cases hread : q.source.read content with
  | ok sql =>
    have hsubmits := QueryCommand.submits_of_read hread
    have hsegments : (Query.request sql q.submission none).segments = ["api", "query"] := by
      rcases q.submission with _ | _ | _ <;> rfl
    refine .sent ?_ hidle (.query hsubmits hsegments (Query.carries_request _ _ _))
      (Query.concludes_ofQuery (fun r text => ?_) (fun r c => ?_) sql)
    · rintro (h | _)
      exact h sql q.submission hsubmits
    · constructor
      · rintro (h | _)
        exact ⟨_, h, rfl⟩
      · rintro ⟨t, h, rfl⟩
        exact .query h
    · exact ⟨fun h => (by cases h with | query h => exact h), .query⟩
  | error e =>
    -- A text that some source would yield contradicts that this one yields none.
    obtain ⟨why, rfl⟩ := SqlSource.input_of_read hread
    refine .rejected why (.query fun sql submission h => ?_) hidle
    cases hread.symm.trans h.read_eq.1

/-! ### Views that are opened -/

variable {path : String} {sql : Option String} {c c' : Command}

theorem Opens.unique (h : Opens path sql c) (h' : Opens path sql c') : c = c' := by
  cases h with
  | metrics h => cases h' with
    | metrics => rfl
    | tables h' | query h' => cases h.symm.trans h'
  | tables h => cases h' with
    | tables => rfl
    | metrics h' | query h' => cases h.symm.trans h'
  | query h => cases h' with
    | query => rfl
    | metrics h' | tables h' => cases h.symm.trans h'

theorem Opens.plan_eq [Allocator] (h : Opens path sql c) :
    Plan.ofCommand format content (.open path sql) = Plan.ofCommand format content c := by
  cases h with
  | metrics h | tables h | query h =>
    simp only [Plan.ofCommand, h]
    rfl

theorem Opens.conclusion_eq [Allocator] (h : Opens path sql c) :
    (Command.open path sql).conclusion format = c.conclusion format := by
  have hprints : (Command.open path sql).Prints format = c.Prints format := by
    funext r text
    refine propext ⟨fun ho => ?_, .opens h⟩
    cases ho with | opens h' ho => exact h'.unique h ▸ ho
  have hcrashes : (Command.open path sql).Crashes = c.Crashes := by
    funext r crash
    refine propext ⟨fun ho => ?_, .opens h⟩
    cases ho with | opens h' ho => exact h'.unique h ▸ ho
  have hquery : (Command.open path sql).isQuery = c.isQuery := by
    cases h with
    | metrics h | tables h | query h => simp [isQuery, h]
  rw [conclusion, hprints, hcrashes, hquery, conclusion]

theorem Opens.sends (h : Opens path sql c) : ¬ c.Rejected content ∧ ¬ c.Idle := by
  cases h with
  | metrics =>
    refine ⟨fun h => ?_, fun h => (by cases h)⟩
    cases h with | metrics h => exact Resource.not_rejected_of_payload? rfl h
  | tables =>
    refine ⟨fun h => ?_, fun h => (by cases h)⟩
    cases h with | tables h => exact Resource.not_rejected_of_payload? rfl h
  | query =>
    refine ⟨fun h => ?_, fun h => (by cases h)⟩
    cases h with | query h => exact h _ _ (.given rfl)

theorem Opens.navigate_ne (h : Opens path sql c) :
    Route.navigate path ≠ none ∧ (sql = none → Route.navigate path ≠ some .query) := by
  cases h with
  | metrics h | tables h => simp [h]
  | query h => simp [h]

/-- Opening a path takes the course of the command that the path stands for. -/
theorem Opens.course [Allocator] (h : Opens path sql c)
    (hc : c.Course format content (Plan.ofCommand format content c)) :
    (Command.open path sql).Course format content (Plan.ofCommand format content (.open path sql)) := by
  obtain ⟨haccepted, hidle⟩ : ¬ c.Rejected content ∧ ¬ c.Idle := h.sends
  obtain ⟨hview, hquery⟩ := h.navigate_ne
  rw [h.plan_eq]
  generalize Plan.ofCommand format content c = p at hc
  cases hc with
  | rejected why hrejected _ => exact absurd hrejected haccepted
  | idle text h' _ => exact absurd h' hidle
  | sent _ _ hasks hp =>
    refine .sent (fun ho => ?_) (fun ho => ?_) (.opens h hasks) (h.conclusion_eq ▸ hp)
    · cases ho with | opens hnone => exact hview hnone
    · cases ho with | opens hsome => exact hquery rfl hsome

theorem course_item [Allocator] {α : Type} {k : Resource.Kind α} {r : Request} {c : Command}
    (haccepted : ¬ c.Rejected content) (hidle : ¬ c.Idle) (hquery : c.isQuery = false)
    (hasks : c.Asks content r)
    (h : ∀ r text, (∃ item, Json.read k.reader r.text = .ok item ∧ k.render [item] format = text) ↔
      c.Prints format r text) : c.Course format content (Plan.sendForItem k format r) :=
  .sent haccepted hidle hasks (concludes_of_iff hquery h
    (Resource.concludes_sendForItem fun _ _ => Iff.rfl))

/-- **Every command takes one of the courses.** -/
theorem course [Allocator] (format : OutputFormat) (content : Except ReadFault ByteArray)
    (c : Command) :
    c.Course format content (Plan.ofCommand format content c) := by
  have metrics (a : Action) :
      (metrics a).Course format content (Plan.ofCommand format content (.metrics a)) :=
    course_ofAction Resource.metrics (fun h => by cases h) rfl
      ⟨fun h => (by cases h with | metrics h => exact h), .metrics⟩ (fun _ => .metrics)
      fun _ _ => ⟨.metrics, fun h => (by cases h with | metrics h => exact h)⟩
  have tables (a : Action) :
      (tables (.basic a)).Course format content (Plan.ofCommand format content (.tables (.basic a))) :=
    course_ofAction Resource.tables (fun h => by cases h) rfl
      ⟨fun h => (by cases h with | tables h => exact h), .tables⟩ (fun _ => .tables)
      fun _ _ => ⟨.tables, fun h => (by cases h with | tables h => exact h)⟩
  cases c with
  | query q => exact course_query q
  | metrics a => exact metrics a
  | tables a =>
    cases a with
    | basic a => exact tables a
    | byName name =>
      refine course_item (fun h => by cases h) (fun h => by cases h) rfl (.byName name)
        fun r text => ⟨?_, fun h => ?_⟩
      · rintro ⟨item, h, rfl⟩
        exact .byName name h
      · cases h with | byName _ h => exact ⟨_, h, rfl⟩
  | configs a =>
    cases a with
    | basic a =>
      exact course_ofAction Resource.configurations (fun h => by cases h) rfl
        ⟨fun h => (by cases h with | configs h => exact h), .configs⟩ (fun _ => .configs)
        fun _ _ => ⟨.configs, fun h => (by cases h with | configs h => exact h)⟩
    | preview id =>
      refine .sent (fun h => by cases h) (fun h => by cases h) (.preview id)
        (concludes_of_iff rfl (fun r text => ⟨?_, fun h => ?_⟩)
          (Resource.concludes_unread fun _ _ => Iff.rfl))
      · rintro rfl
        exact .preview id
      · cases h
        rfl
  | «open» path sql =>
    cases hview : Route.navigate path with
    | none =>
      rw [Plan.ofCommand, hview]
      exact .rejected _ (.opens hview) fun h => by cases h with | opens h => cases hview.symm.trans h
    | some view =>
      cases view with
      | metrics => exact (Opens.metrics hview).course (metrics .list)
      | tables => exact (Opens.tables hview).course (tables .list)
      | query =>
        cases sql with
        | some sql => exact (Opens.query hview).course (course_query _)
        | none =>
          rw [Plan.ofCommand, hview]
          exact .idle _ (.opens hview) fun h => by cases h with | opens h => cases hview.symm.trans h

theorem ne_input_of_ends [Allocator] {x : Except TransportError Response} {finish : Finish}
    (h : (c.conclusion format).Ends x finish) (why : String) :
    finish ≠ .ok (.error (.input why)) := by
  rintro rfl
  unfold conclusion at h
  split at h
  · cases h with | unread _ _ he =>
      obtain ⟨_, he⟩ := he
      cases he
  · cases h with | unread _ _ he =>
      obtain ⟨_, he⟩ := he
      cases he

/-- **What a command sends and how it ends.** Every command sends at most one request, over every
exchange. It ends with an error of the input exactly if its input is rejected, and it prints
something without a request exactly if it is the view of queries without a text; both send nothing.
Every other command sends the one request that it asks for and ends with what is made of the
exchange: something is printed exactly of a successful response with the body that was expected, and
otherwise the error tells the stage, unless decoding the result of a query crashes. -/
theorem dispatch_exact [Allocator] (format : OutputFormat) (content : Except ReadFault ByteArray)
    (exchange : Request → Except TransportError Response) (c : Command) :
    ∃ finish requests,
      (Plan.ofCommand format content c).through exchange = (finish, requests) ∧
      requests.length ≤ 1 ∧
      (c.Rejected content ↔ ∃ why, finish = .ok (.error (.input why))) ∧
      (c.Rejected content → requests = []) ∧
      (c.Idle ↔ requests = [] ∧ ∃ text, finish = .ok (.ok text)) ∧
      (¬ c.Rejected content → ¬ c.Idle → ∃ r, c.Asks content r ∧ requests = [r] ∧
        (c.conclusion format).Ends (exchange r) finish ∧
        ((∃ text, finish = .ok (.ok text)) ↔ ∃ response text,
          exchange r = .ok response ∧ response.isSuccess = true ∧ c.Prints format response text)) := by
  have hcourse := course format content c
  refine ⟨_, _, rfl, Plan.length_through_le _, ?_⟩
  generalize Plan.ofCommand format content c = p at hcourse
  cases hcourse with
  | rejected why h hidle =>
    refine ⟨iff_of_true h ⟨why, rfl⟩, fun _ => rfl, iff_of_false hidle ?_, fun hno => absurd h hno⟩
    rintro ⟨-, text, htext⟩
    cases htext
  | idle text h haccepted =>
    refine ⟨iff_of_false haccepted ?_, fun _ => rfl, iff_of_true h ⟨rfl, text, rfl⟩,
      fun _ hno => absurd h hno⟩
    rintro ⟨why, hwhy⟩
    cases hwhy
  | @sent r p haccepted hidle hasks hp =>
    obtain ⟨finish, rfl, hends⟩ := hp
    have hend := hends (exchange r)
    refine ⟨iff_of_false haccepted ?_, fun h => absurd h haccepted, iff_of_false hidle ?_,
      fun _ _ => ⟨r, hasks, rfl, hend, ?_⟩⟩
    · rintro ⟨why, hwhy⟩
      exact ne_input_of_ends hend why hwhy
    · rintro ⟨hnil, -⟩
      cases hnil
    · have hprints : (c.conclusion format).prints = c.Prints format := by
        unfold conclusion
        split <;> rfl
      rw [← hprints]
      exact hend.printed_iff

section

open scoped Allocator.Sized

/-- A query is answered with durations that cannot all be shown: after its one request it ends neither
with a text nor with an error. -/
theorem dispatch_longDurations :
    (Plan.ofCommand .json (.ok ByteArray.empty) (.query ⟨some "SELECT v", none, none⟩)).through
        (fun _ => .ok ⟨200, none, .binary Columnar.longDurations⟩)
      = (.error .durationOutOfRange, [Query.request "SELECT v" .post none]) := by
  obtain ⟨p, hread, hstop⟩ := Columnar.stop?_longDurations
  have hdecode : Columnar.decode Columnar.longDurations
      = Columnar.ofAttempt (.error .durationOutOfRange) := by
    rw [Columnar.decode_of_readPayload hread]
    exact Columnar.stop?_eq_inr.1 hstop
  have hanswer : Query.answer .arrow (.ok ⟨200, none, .binary Columnar.longDurations⟩)
      = .error .durationOutOfRange := by
    rw [Query.answer, Query.classify_of_success rfl]
    unfold Query.decode Response.bytes
    rw [hdecode]
    rfl
  show ((Query.answer .arrow (.ok ⟨200, none, .binary Columnar.longDurations⟩)).bind _, _) = _
  rw [hanswer]
  rfl

end

end Command

end DataClient
