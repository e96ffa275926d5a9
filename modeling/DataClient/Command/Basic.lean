import DataClient.Output
import DataClient.Query.Submission

/-!
# Commands

What a run of the client is asked to do.
-/

set_option autoImplicit false

namespace DataClient

/-- What can be done with resources of any kind. Items are given as JSON texts. -/
inductive Action
  | list
  | get (id : Int64)
  | create (json : String)
  | update (id : Int64) (json : String)
  | delete (id : Int64)
  deriving DecidableEq, Repr

/-- What can be done with table definitions. -/
inductive TableAction
  | basic (a : Action)
  | byName (name : String)
  deriving DecidableEq, Repr

/-- What can be done with configuration entries. -/
inductive ConfigAction
  | basic (a : Action)
  | preview (id : Int64)
  deriving DecidableEq, Repr

/-- Where the text of a query comes from. -/
inductive SqlSource
  | given (sql : String)
  | stdin
  | file (path : String)
  | missing
  deriving DecidableEq, Repr

/-- A query to be run. -/
structure QueryCommand where
  sql : Option String
  /-- A file that holds the text, `-` for the standard input. -/
  file : Option String
  /-- The format to ask for in a GET request. -/
  get : Option ResultFormat
  deriving DecidableEq, Repr

namespace QueryCommand

/-- Where the text comes from. -/
def source (q : QueryCommand) : SqlSource :=
  match q.sql, q.file with
  | some sql, _ => .given sql
  | none, some "-" => .stdin
  | none, some path => .file path
  | none, none => .missing

def submission (q : QueryCommand) : Submission :=
  match q.get with
  | some format => .get format
  | none => .post

end QueryCommand

inductive Command
  | query (q : QueryCommand)
  | metrics (a : Action)
  | tables (a : TableAction)
  | configs (a : ConfigAction)
  /-- Opens the view at a path; the text is for the view of queries. -/
  | «open» (path : String) (sql : Option String)
  deriving DecidableEq, Repr

/-- The text of a query, given what its file or the standard input holds. -/
def SqlSource.read (source : SqlSource) (content : Except ReadFault ByteArray) :
    Except ClientError String :=
  let text := do
    match Text.ofBytes? (← content) with
    | some s => return s
    | none => throw ReadFault.notText
  match source with
  | .given sql => .ok sql
  | .missing => .error (.input "No SQL given")
  | .stdin => text.mapError fun e => .input ("Failed to read SQL from stdin: " ++ e.message)
  | .file path =>
    text.mapError fun e => .input ("Failed to read SQL file '" ++ path ++ "': " ++ e.message)

end DataClient
