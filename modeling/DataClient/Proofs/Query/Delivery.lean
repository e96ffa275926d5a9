import DataClient.Command.Plan
import DataClient.Proofs.Query.Submissions
import DataClient.Proofs.Web.Address
import DataClient.Proofs.Web.Form

/-!
# The text of a query on its way

The text of a query comes from the command line, from a file, from the standard input or along with
the path of a view, and it leaves in the body of a request or in a parameter. On the way it is
neither trimmed nor completed: the command sends one request, that request holds the text as it was
(`Request.Carries`), and what is made of the request for an address still says it
(`Remote.exists_address_parameters`). So two texts never make one request, nor one message.
-/

set_option autoImplicit false

namespace DataClient

/-! ## From a command to a request -/

/-- The command submits the text `sql`: it is given, it is what the file of the query or the standard
input holds, or it comes with a path that leads to the view of queries. -/
inductive Command.Submits (content : Except ReadFault ByteArray) (sql : String) :
    Command → Submission → Prop
  | given {q : QueryCommand} (h : q.sql = some sql) : Submits content sql (.query q) q.submission
  | held {q : QueryCommand} {path : String} (hsql : q.sql = none) (hfile : q.file = some path)
    (h : content = .ok sql.toUTF8) : Submits content sql (.query q) q.submission
  | opened {path : String} (h : Route.navigate path = some .query) :
    Submits content sql (.open path (some sql)) .post

theorem QueryCommand.read_given {q : QueryCommand} {sql : String} (h : q.sql = some sql)
    (content : Except ReadFault ByteArray) : q.source.read content = .ok sql := by
  unfold source
  rw [h]
  rfl

/-- A query without a text of its own is read from the standard input or from its file. -/
theorem QueryCommand.source_of_file {q : QueryCommand} {path : String} (hsql : q.sql = none)
    (hfile : q.file = some path) : q.source = .stdin ∨ q.source = .file path := by
  by_cases hdash : path = "-"
  · subst hdash
    exact .inl (by unfold source; rw [hsql, hfile]; rfl)
  · refine .inr ?_
    unfold source
    rw [hsql, hfile]
    split
    · contradiction
    · rename_i heq
      exact absurd (Option.some.inj heq) hdash
    · rename_i heq
      rw [Option.some.inj heq]
    · contradiction

/-- The text of a file or of the standard input is all of it. -/
theorem QueryCommand.read_held {q : QueryCommand} {sql path : String} (hsql : q.sql = none)
    (hfile : q.file = some path) : q.source.read (.ok sql.toUTF8) = .ok sql := by
  have htext : Text.ofBytes? sql.toUTF8 = some sql := Web.ofBytes?_toUTF8 sql
  obtain hsource | hsource := source_of_file hsql hfile <;>
  · rw [hsource]
    unfold SqlSource.read
    dsimp only [bind, Except.bind]
    rw [htext]
    rfl

/-- **A command that submits a text runs the query of that text**, and of nothing else. -/
theorem Command.Submits.ofCommand_eq [Allocator] {content : Except ReadFault ByteArray}
    {sql : String}
    {command : Command} {submission : Submission} (h : command.Submits content sql submission)
    (format : OutputFormat) :
    Plan.ofCommand format content command = Plan.ofQuery sql submission format := by
  cases h with
  | given h => rw [Plan.ofCommand, QueryCommand.read_given h]
  | held hsql hfile h => rw [Plan.ofCommand, h, QueryCommand.read_held hsql hfile]
  | opened h => rw [Plan.ofCommand, h]; rfl

/-- Running a query sends one request. -/
theorem Plan.perform_ofQuery [Allocator] (sql : String) (submission : Submission)
    (format : OutputFormat)
    (stub : Stub) (log : List Request) :
    ((ofQuery sql submission format).perform stub log).2
      = log ++ [Query.request sql submission none] := rfl

/-! ## From a request to an address -/

theorem Query.segments_request (sql : String) (submission : Submission) (timeout : Option Nat) :
    (request sql submission timeout).segments = ["api", "query"] := by
  rcases submission with _ | _ | _ <;> rfl

theorem Query.accept_isHeaderValue (sql : String) (submission : Submission) (timeout : Option Nat) :
    (request sql submission timeout).accept.all isHeaderValue = true := by
  have htypes : isHeaderValue arrowTypes = true ∧ isHeaderValue jsonType = true := by decide +kernel
  rcases submission with _ | _ | _
  · exact htypes.1
  · exact htypes.1
  · exact htypes.2

/-- The request holds the text of a query: as its body, sent as plain text, or as the first of its two
parameters, in front of the name of the format. -/
def Request.Carries (r : Request) (sql : String) : Submission → Prop
  | .post => r.method = .post ∧ r.body = .text sql ∧ r.body.contentType? = some "text/plain" ∧
      r.parameters = []
  | .get format => r.method = .get ∧ r.body = .empty ∧
      r.parameters = [("sql", sql), ("format", format.name)]

theorem Query.carries_request (sql : String) (submission : Submission) (timeout : Option Nat) :
    (request sql submission timeout).Carries sql submission := by
  rcases submission with _ | _ | _
  · exact ⟨rfl, rfl, rfl, rfl⟩
  · exact ⟨rfl, rfl, rfl⟩
  · exact ⟨rfl, rfl, rfl⟩

/-- A message has the query of the address of its request. -/
theorem Outgoing.Conveys.query_eq {m : Outgoing} {request : Request} {url : Web.Url}
    (h : m.Conveys request url) : m.target.query = url.query := by
  rcases h.target with htarget | htarget
  · rw [htarget]
  · rw [htarget]
    rfl

namespace Remote

/-- The parameters of an address. -/
def parametersOf (url : Web.Url) : List (String × String) := Web.parsePairs (url.query.getD "")

/-- **The parameters of a request are read behind those of the base address.** -/
theorem exists_address_parameters [Web.DomainReader] {settings : ServerSettings} {r : Remote}
    (h : settings.validate = .ok r.base) (request : Request) :
    ∃ url, r.address request = .ok url ∧
      parametersOf url = parametersOf r.base ++ request.parameters := by
  obtain ⟨parts, hpath, -⟩ := ServerSettings.exists_path h
  unfold address Web.Url.append?
  rw [hpath]
  refine ⟨_, rfl, ?_⟩
  unfold parametersOf
  dsimp only
  split_ifs with hempty
  · rw [List.isEmpty_iff.1 hempty, List.append_nil]
  · rw [Option.getD_some, Web.parsePairs_appendPairs]

/-- Two requests that make one message have the same verb, body and parameters. -/
theorem eq_of_outgoing_eq [Web.DomainReader] {settings : ServerSettings} {r : Remote}
    (h : settings.validate = .ok r.base) {request request' : Request} {m : Outgoing}
    (hm : r.outgoing request = .ok m) (hm' : r.outgoing request' = .ok m) :
    request.method = request'.method ∧ request.body.bytes = request'.body.bytes ∧
      request.parameters = request'.parameters := by
  obtain ⟨url, haddress, hconveys⟩ := outgoing_eq_ok hm
  obtain ⟨url', haddress', hconveys'⟩ := outgoing_eq_ok hm'
  refine ⟨hconveys.method.symm.trans hconveys'.method, hconveys.body.symm.trans hconveys'.body, ?_⟩
  obtain ⟨_, hsame, hparameters⟩ := exists_address_parameters h request
  obtain ⟨_, hsame', hparameters'⟩ := exists_address_parameters h request'
  obtain rfl := Except.ok.inj (haddress.symm.trans hsame)
  obtain rfl := Except.ok.inj (haddress'.symm.trans hsame')
  have hall : parametersOf url = parametersOf url' := by
    unfold parametersOf
    rw [← hconveys.query_eq, ← hconveys'.query_eq]
  exact List.append_cancel_left (hparameters.symm.trans (hall.trans hparameters'))

end Remote

/-- What is sent says which text it was made of: the verb tells body and parameter apart. -/
theorem Request.Carries.sql_eq {r r' : Request} {sql sql' : String} {submission submission' : Submission}
    (h : r.Carries sql submission) (h' : r'.Carries sql' submission') (hmethod : r.method = r'.method)
    (hbody : r.body.bytes = r'.body.bytes) (hparameters : r.parameters = r'.parameters) :
    sql = sql' := by
  cases submission with
  | post =>
    obtain ⟨hpost, htext, -, -⟩ := h
    cases submission' with
    | post =>
      obtain ⟨-, htext', -, -⟩ := h'
      rw [htext, htext'] at hbody
      exact Web.Path.toUTF8_inj.1 hbody
    | get format =>
      rw [hpost, h'.1] at hmethod
      cases hmethod
  | get format =>
    obtain ⟨hget, -, hpairs⟩ := h
    cases submission' with
    | post =>
      rw [hget, h'.1] at hmethod
      cases hmethod
    | get format' =>
      rw [hpairs, h'.2.2] at hparameters
      exact congrArg Prod.snd (List.cons.inj hparameters).1

/-! ## The whole way -/

/-- **The text of a query is delivered as it was.** A command that submits a text sends one request,
to the path of queries, which carries the text; under every base address that settings can give, the
request has an address. Its path is the one of queries behind that of the base address, its parameters
are those of the base address with the text and the format behind them, and if it can be sent, the
request has a message. Commands that submit different texts, in whatever way, never send the same
request, and requests for different texts never make the same message. -/
theorem text_delivered [Web.DomainReader] [Allocator] {content : Except ReadFault ByteArray}
    {sql : String} {command : Command}
    {submission : Submission} (h : command.Submits content sql submission) (format : OutputFormat) :
    ∃ r : Request,
      (∀ stub log, ((Plan.ofCommand format content command).perform stub log).2 = log ++ [r]) ∧
      r.path = "/api/query" ∧ r.Carries sql submission ∧
      (∀ (settings : ServerSettings) (remote : Remote), settings.validate = .ok remote.base →
        ∃ url, remote.address r = .ok url ∧
          (remote.base.path.write ≠ "//" →
            url.path.write = Web.Path.withoutSlash remote.base.path.write ++ "/api/query") ∧
          Remote.parametersOf url = Remote.parametersOf remote.base ++ r.parameters ∧
          (url.isSendable = true → ∃ m, remote.outgoing r = .ok m ∧ m.Conveys r url)) ∧
      ∀ content' sql' command' submission' format' (r' : Request),
        Command.Submits content' sql' command' submission' →
        (∀ stub log, ((Plan.ofCommand format' content' command').perform stub log).2 = log ++ [r']) →
        (r = r' → sql = sql') ∧
        ∀ (settings : ServerSettings) (remote : Remote), settings.validate = .ok remote.base →
          ∀ m, remote.outgoing r = .ok m → remote.outgoing r' = .ok m → sql = sql' := by
  have hcarries := Query.carries_request sql submission none
  refine ⟨Query.request sql submission none, fun stub log => ?_, Query.request_path _ _ _, hcarries,
    fun settings remote hvalid => ?_, ?_⟩
  · rw [h.ofCommand_eq, Plan.perform_ofQuery]
  · obtain ⟨url, haddress, hparameters⟩ := Remote.exists_address_parameters hvalid
      (Query.request sql submission none)
    refine ⟨url, haddress, fun hroot => ?_, hparameters, fun hsendable =>
      Remote.exists_outgoing haddress hsendable (Query.accept_isHeaderValue sql submission none)⟩
    obtain ⟨parts, hbase, hfree⟩ := ServerSettings.exists_path hvalid
    exact Remote.write_path_of_intact hbase hfree hroot (Query.segments_request sql submission none)
      (by decide) (by decide) haddress
  · intro content' sql' command' submission' format' r' h' hsent
    -- The one request of the other command is the one for its own text.
    have hrequest : Query.request sql' submission' none = r' := by
      have hlog := hsent .empty []
      rw [h'.ofCommand_eq, Plan.perform_ofQuery] at hlog
      exact List.singleton_inj.1 hlog
    have hcarries' : r'.Carries sql' submission' :=
      hrequest ▸ Query.carries_request sql' submission' none
    constructor
    · rintro rfl
      exact hcarries.sql_eq hcarries' rfl rfl rfl
    · intro settings remote hvalid m hm hm'
      obtain ⟨hmethod, hbody, hparameters⟩ := Remote.eq_of_outgoing_eq hvalid hm hm'
      exact hcarries.sql_eq hcarries' hmethod hbody hparameters

/-- A service whose address has a query and a fragment of its own. -/
def Remote.tenant : Remote :=
  ⟨⟨"http", some ⟨"", none, .domain "svc.test", none⟩, .segments [""], some "tenant=a+b",
    some "top"⟩, 30⟩

section

open scoped Allocator.Sized Web.Domain

/-- A text with the characters that part parameters, read from a file, arrives behind the parameter
of the base address. -/
theorem text_delivered_tenant :
    ServerSettings.validate ⟨"http://svc.test/?tenant=a+b#top", 30⟩ = .ok Remote.tenant.base ∧
      ∃ r : Request,
        ((Plan.ofCommand .json (.ok " a=b&c\n\x00+%41é".toUTF8)
          (.query ⟨none, some "q.sql", some .json⟩)).perform .empty []).2 = [r] ∧
        ∃ url, Remote.tenant.address r = .ok url ∧ url.path.write = "/api/query" ∧
          Remote.parametersOf url
            = [("tenant", "a b"), ("sql", " a=b&c\n\x00+%41é"), ("format", "json")] := by
  have hvalid : ServerSettings.validate ⟨"http://svc.test/?tenant=a+b#top", 30⟩
      = .ok Remote.tenant.base := Outcome.toOption_eq_some.1 (by decide +kernel)
  have hbase : Remote.parametersOf Remote.tenant.base = [("tenant", "a b")] := by decide +kernel
  have hsubmits : Command.Submits (.ok " a=b&c\n\x00+%41é".toUTF8) " a=b&c\n\x00+%41é"
      (.query ⟨none, some "q.sql", some .json⟩) (.get .json) :=
    .held (q := ⟨none, some "q.sql", some .json⟩) rfl rfl rfl
  obtain ⟨r, hsent, -, ⟨-, -, hpairs⟩, haddress, -⟩ := text_delivered hsubmits .json
  obtain ⟨url, hurl, hpath, hparameters, -⟩ := haddress _ _ hvalid
  have hfront : Web.Path.withoutSlash Remote.tenant.base.path.write ++ "/api/query" = "/api/query" := by
    decide +kernel
  refine ⟨hvalid, r, hsent .empty [], url, hurl, (hpath (by decide +kernel)).trans hfront, ?_⟩
  rw [hparameters, hbase, hpairs]
  rfl

end

end DataClient
