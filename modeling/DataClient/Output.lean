import DataClient.Table.Basic
import DataClient.Table.Drawing

/-!
# Output

Results are shown as boxed text tables or as JSON, failed queries by their tag.
-/

set_option autoImplicit false

namespace DataClient

/-- How results are shown. -/
inductive OutputFormat
  | text
  | json
  deriving DecidableEq, Repr

/-- Reads the name of a format, in any case of letters. -/
def OutputFormat.ofString? (s : String) : Except String OutputFormat :=
  match Text.lowerAscii s with
  | "text" => .ok .text
  | "json" => .ok .json
  | _ => .error ("Invalid output format: " ++ s ++ ". Expected: text or json")

def OutputFormat.name : OutputFormat → String
  | .text => "text"
  | .json => "json"

/-- A document over several lines, ended by a line break. -/
def renderJson (j : Json) : String := j.pretty ++ "\n"

/-- The cells of a table as text. -/
def Table.toText (t : Table) : TextTable :=
  (TextTable.ofHeaders t.columnNames).append (t.rows.map fun row => row.map Cell.display)

/-- A result in a format. -/
def Table.render (t : Table) : OutputFormat → String
  | .text => t.toText.render
  | .json => renderJson t.toJson

/-- A failed query: tag, status if there is one, and message. -/
def QueryError.render (e : QueryError) : String :=
  match e.status? with
  | some status => "[" ++ e.tag ++ " " ++ toString status ++ "] " ++ e.message
  | none => "[" ++ e.tag ++ "] " ++ e.message

/-- What is logged unless the environment says otherwise. -/
def logDirective (verbose : Bool) : String :=
  if verbose then "uds_client=debug,uds=debug,warn" else "warn"

end DataClient
