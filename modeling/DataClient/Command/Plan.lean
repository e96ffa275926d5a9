import DataClient.Command.Basic
import DataClient.Exchange.Stub
import DataClient.Resource.Service
import DataClient.Routes

/-!
# Plans

What a command does: it is finished at once, or it sends one request and finishes with what is made
of the answer. There is no third way, so no command ever sends two requests.
-/

set_option autoImplicit false

namespace DataClient

/-- What a command ends with: what is printed, an error, or a crash. -/
abbrev Finish := Except Crash (Except ClientError String)

/-- What a command does. -/
inductive Plan
  | done (result : Except ClientError String)
  | send (r : Request) (finish : Except TransportError Response → Finish)

namespace Plan

/-- Sends a request and prints what is made of an accepted response. -/
def sendFor (r : Request) (print : Response → Except ClientError String) : Plan :=
  .send r fun answer => .ok (do print (← Resource.accepted answer))

/-- Sends a request for an item and prints the listing of it. -/
def sendForItem {α : Type} (k : Resource.Kind α) (format : OutputFormat) (r : Request) : Plan :=
  sendFor r fun response => do
    let item ← Resource.ofResponse k.reader response
    return k.render [item] format

/-- Sends an item, if the text is one. -/
def sendItem {α : Type} (k : Resource.Kind α) (format : OutputFormat) (r : Request)
    (json : String) : Plan :=
  match k.ofPayload json with
  | .error e => .done (.error e)
  | .ok item => sendForItem k format (k.carrying r item)

def ofAction {α : Type} (k : Resource.Kind α) (format : OutputFormat) : Action → Plan
  | .list => sendFor (k.collection .get) fun response => do
    let items ← Resource.ofResponse (Json.Reader.list k.reader) response
    return k.render items format
  | .get id => sendForItem k format (k.member .get id)
  | .create json => sendItem k format (k.collection .post) json
  | .update id json => sendItem k format (k.member .put id) json
  | .delete id => sendFor (k.member .delete id) fun _ =>
    .ok ("Deleted " ++ k.noun ++ " " ++ Resource.idText id ++ "\n")

variable [Allocator]

/-- What running a query does. -/
def ofQuery (sql : String) (submission : Submission) (format : OutputFormat) : Plan :=
  .send (Query.request sql submission none) fun answer => do
    match ← Query.answer submission.format answer with
    | .ok table => return .ok (table.render format)
    | .error e => return .error (.query e)

/-- A text that ends with a line break. -/
def endLine (s : String) : String := if s.toList.getLast? = some '\n' then s else s ++ "\n"

/-- What an action on configuration entries does. -/
def ofConfigAction (format : OutputFormat) : ConfigAction → Plan
  | .basic a => ofAction Resource.configurations format a
  | .preview id =>
    sendFor (Resource.configurations.below .get ["preview", Resource.idText id]) fun response =>
      .ok (endLine response.text)

/-- What an action on table definitions does. -/
def ofTableAction (format : OutputFormat) : TableAction → Plan
  | .basic a => ofAction Resource.tables format a
  | .byName name =>
    sendForItem Resource.tables format (Resource.tables.below .get ["byName", name])

/-- What opening a view does. -/
def ofView (sql : Option String) (format : OutputFormat) : View → Plan
  | .metrics => ofAction Resource.metrics format .list
  | .tables => ofTableAction format (.basic .list)
  | .query =>
    match sql with
    | some sql => ofQuery sql .post format
    | none => .done (.ok (View.query.name ++ ": pass --sql to run a query\n"))

/-- What a command does, given what the file of a query or the standard input holds. -/
def ofCommand (format : OutputFormat) (content : Except ReadFault ByteArray) : Command → Plan
  | .query q =>
    match q.source.read content with
    | .ok sql => ofQuery sql q.submission format
    | .error e => .done (.error e)
  | .metrics a => ofAction Resource.metrics format a
  | .tables a => ofTableAction format a
  | .configs a => ofConfigAction format a
  | .open path sql =>
    match Route.navigate path with
    | some view => ofView sql format view
    | none => .done (.error (.input ("No view at '" ++ path ++ "'")))

/-- Carries a plan out on prepared replies; the requests stand behind those before. -/
def perform (stub : Stub) (log : List Request) : Plan → Finish × List Request
  | .done result => (.ok result, log)
  | .send r finish =>
    let (delivery, log) := stub.send log r
    (finish delivery.result, log)

end Plan

end DataClient
