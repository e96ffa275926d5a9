import DataClient.Error
import DataClient.Table.Cell

/-!
# Tables

A decoded result: columns with different names, and rows that hold one cell for each of them. Both
facts are fields of the type, so every table has them; `Table.ofParts` is the check that
establishes them.
-/

set_option autoImplicit false

namespace DataClient

/-- The description of a column. -/
structure Column where
  name : String
  /-- The name of the type the values were declared with. -/
  dataType : String
  nullable : Bool
  deriving DecidableEq, Repr

/-- The cells of one row, in the order of the columns. -/
abbrev Row := List Cell

/-- A result with one cell for each row and column. -/
structure Table where
  columns : List Column
  rows : List Row
  names_nodup : (columns.map (·.name)).Nodup
  rows_width : ∀ row ∈ rows, row.length = columns.length

namespace Table

/-- The first name that stands behind an equal one, `seen` being the names before. -/
def firstRepeated? (seen : List String) : List String → Option String
  | [] => none
  | name :: rest => if name ∈ seen then some name else firstRepeated? (name :: seen) rest

theorem nodup_of_firstRepeated?_eq_none {seen names : List String}
    (h : firstRepeated? seen names = none) : names.Nodup ∧ ∀ n ∈ names, n ∉ seen := by
  induction names generalizing seen with
  | nil => simp
  | cons name rest ih =>
    unfold firstRepeated? at h
    split at h
    · simp at h
    · rename_i hn
      obtain ⟨hd, hs⟩ := ih h
      refine ⟨List.nodup_cons.2 ⟨fun hm => ?_, hd⟩, ?_⟩
      · exact hs name hm (by simp)
      · intro n hm
        rcases List.mem_cons.1 hm with rfl | hm
        · exact hn
        · exact fun hmem => hs n hm (List.mem_cons_of_mem _ hmem)

/-- Checks the names, then the rows, and builds the table. -/
def ofParts (columns : List Column) (rows : List Row) : Except DecodeError Table :=
  match hn : firstRepeated? [] (columns.map (·.name)) with
  | some name => .error (.duplicateColumn name)
  | none =>
    match hr : rows.find? (fun row => row.length != columns.length) with
    | some row => .error (.columnCount columns.length row.length)
    | none =>
      .ok {
        columns
        rows
        names_nodup := (nodup_of_firstRepeated?_eq_none hn).1
        rows_width := fun row hrow => by
          have := List.find?_eq_none.1 hr row hrow
          simpa using this }

/-- The names of the columns, in order. -/
def columnNames (t : Table) : List String := t.columns.map (·.name)

/-- The number of columns. -/
def columnCount (t : Table) : Nat := t.columns.length

/-- The number of rows. -/
def rowCount (t : Table) : Nat := t.rows.length

def isEmpty (t : Table) : Bool := t.rows.isEmpty

/-- The cell of a row and a column, if both exist. -/
def get? (t : Table) (row column : Nat) : Option Cell :=
  (t.rows[row]?).bind fun r => r[column]?

/-- The position of a column. -/
def columnIndex? (t : Table) (name : String) : Option Nat :=
  t.columns.findIdx? (·.name == name)

def columnJson (c : Column) : Json :=
  .object [("name", .string c.name), ("dataType", .string c.dataType), ("nullable", .bool c.nullable)]

/-- The table as JSON: columns, rows and the number of rows. -/
def toJson (t : Table) : Json :=
  .object [
    ("columns", .array (t.columns.map columnJson)),
    ("rows", .array (t.rows.map fun r => .array (r.map Cell.toJson))),
    ("rowCount", Json.ofCount t.rowCount)]

end Table

end DataClient
