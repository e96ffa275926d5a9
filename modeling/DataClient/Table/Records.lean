import DataClient.Json.Shape
import DataClient.Table.Basic

/-!
# Tables from JSON records

A JSON result lists its rows as objects with the same keys. Objects give no order of columns, so
the columns stand in the order of their names. The type of a column is the least kind that all its
cells have in common (`ColumnKind.join`), and every cell is brought to that kind.
-/

set_option autoImplicit false

namespace DataClient

/-- What the cells of a column have in common. Nulls fit every kind, integers are also doubles, and
everything is a text. -/
inductive ColumnKind
  | null
  | boolean
  | int64
  | float64
  | utf8
  deriving DecidableEq, Repr

namespace ColumnKind

def ofCell : Cell → ColumnKind
  | .null => .null
  | .bool _ => .boolean
  | .int _ => .int64
  | .float _ => .float64
  | _ => .utf8

/-- The least kind that covers two kinds. -/
def join : ColumnKind → ColumnKind → ColumnKind
  | .null, k => k
  | k, .null => k
  | .boolean, .boolean => .boolean
  | .int64, .int64 => .int64
  | .int64, .float64 => .float64
  | .float64, .int64 => .float64
  | .float64, .float64 => .float64
  | _, _ => .utf8

/-- The name of the type of a column of this kind. -/
def name : ColumnKind → String
  | .null => "Null"
  | .boolean => "Boolean"
  | .int64 => "Int64"
  | .float64 => "Float64"
  | .utf8 => "Utf8"

/-- Brings a cell to the kind of its column. -/
def coerce (k : ColumnKind) (c : Cell) : Cell :=
  match k, c with
  | _, .null => .null
  | .float64, .int n => .float (Float.ofInt n.toInt)
  | .utf8, c => .string c.display
  | _, c => c

end ColumnKind

namespace Records

/-- A JSON result: its rows, and how many there should be. -/
structure Result where
  data : List (List (String × Json))
  rowCount : Option Nat

/-- A result of which some fields have been read. -/
structure Partial where
  data : Option (List (List (String × Json))) := none
  rowCount : Option (Option Nat) := none

def reader : Json.Reader Result :=
  Json.Reader.record "JsonResult"
    [ { name := "data"
        isSet := fun (p : Partial) => p.data.isSome
        read := fun p => do
          return { p with data := some (← Json.Reader.list (Json.Reader.dictionary Json.Reader.document)) }
        mayEnd := false },
      { name := "rowCount"
        isSet := fun p => p.rowCount.isSome
        read := fun p => do return { p with rowCount := some (← Json.Reader.optional Json.Reader.count) }
        mayEnd := false } ]
    {}
    fun p => match p.data with
      | some data => .ok ⟨data, p.rowCount.getD none⟩
      | none => .error "data"

/-- The cell of a JSON value in a column: lists and objects become their JSON text, and an integer
has to fit. -/
def cellOf (column : String) : Json → Except DecodeError Cell
  | .null => .ok .null
  | .bool b => .ok (.bool b)
  | .number (.natural n) =>
    if n.toNat < 0x8000000000000000 then .ok (.int (Int64.ofNat n.toNat))
    else .error (.value column (.unsigned n.toNat))
  | .number (.negative n) => .ok (.int n)
  | .number (.float x) => .ok (.float x)
  | .string s => .ok (.string s)
  | nested => .ok (.string nested.compact)

/-- The cells of a row, one for each name. -/
def rowCells (index : Nat) (members : List (String × Json)) : List String → Except DecodeError Row
  | [] => .ok []
  | name :: names =>
    match Json.lookup name members with
    | none => .error (.json (.missingColumn index name))
    | some value => do
      let c ← cellOf name value
      let cs ← rowCells index members names
      return c :: cs

/-- The rows from position `index` on; each has as many members as there are names. -/
def rowsFrom (names : List String) : (index : Nat) → List (List (String × Json)) → Except DecodeError (List Row)
  | _, [] => .ok []
  | index, members :: rest =>
    if members.length ≠ names.length then
      .error (.json (.fieldCount index members.length names.length))
    else do
      let row ← rowCells index members names
      let rows ← rowsFrom names (index + 1) rest
      return row :: rows

/-- The kinds of the columns, starting from those of the rows before. -/
def kindsOf (start : List ColumnKind) (rows : List Row) : List ColumnKind :=
  rows.foldl (fun kinds row => List.zipWith (fun k c => k.join (.ofCell c)) kinds row) start

def Result.toTable (r : Result) : Except DecodeError Table :=
  let names := match r.data with
    | [] => []
    | first :: _ => first.map (·.1)
  match r.rowCount with
  | some n =>
    if n ≠ r.data.length then .error (.json (.rowCount n r.data.length))
    else build names
  | none => build names
where
  /-- The table with columns of the given names. -/
  build (names : List String) : Except DecodeError Table := do
    let rows ← rowsFrom names 0 r.data
    let kinds := kindsOf (names.map fun _ => .null) rows
    Table.ofParts
      (List.zipWith (fun name (kind : ColumnKind) => ⟨name, kind.name, true⟩) names kinds)
      (rows.map fun row => List.zipWith ColumnKind.coerce kinds row)

/-- Decodes a JSON result. -/
def decode (text : String) : Except DecodeError Table :=
  if Text.trimChars text.toList = [] then .error .empty
  else match Json.read reader text with
    | .error e => .error (.json (.malformed e))
    | .ok r => r.toTable

end Records

end DataClient
