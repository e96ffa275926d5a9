import DataClient.Table.Basic

/-!
# From columns to rows

Decoded columns are turned into rows. Every column has to hold exactly as many cells as there are
rows, and the rows have to fit into memory.
-/

set_option autoImplicit false

namespace DataClient

/-- The memory of a run. What it grants is not for the program to say. -/
class Allocator where
  /-- Whether a claim for so many bytes is granted. -/
  grants : Nat → Bool

/-- The most bytes that a single claim can be for, whatever the memory grants. -/
def capacityLimit : Nat := 0x7FFFFFFFFFFFFFFF

/-- There is room for `count` entries of `size` bytes each. Nothing is claimed for no bytes. -/
def HasRoom [Allocator] (size count : Nat) : Prop :=
  size * count = 0 ∨ size * count ≤ capacityLimit ∧ Allocator.grants (size * count) = true

instance [Allocator] (size count : Nat) : Decidable (HasRoom size count) :=
  inferInstanceAs (Decidable (_ ∨ _))

namespace Allocator

/-- A memory that grants every claim for at most so many bytes. -/
@[reducible] def upTo (bytes : Nat) : Allocator := ⟨fun n => decide (n ≤ bytes)⟩

namespace Sized

/-- A memory of four gigabytes. -/
scoped instance fourGigabytes : Allocator := upTo 0x100000000

end Sized

end Allocator

/-- The bytes a row takes in a list of rows, apart from its cells. -/
def rowBytes : Nat := 24

/-- The bytes a cell takes in a list of cells. -/
def cellBytes : Nat := 32

variable [Allocator]

/-- No room is larger than a claim can be. -/
theorem HasRoom.le {size count : Nat} (h : HasRoom size count) : size * count ≤ capacityLimit := by
  rcases h with h | ⟨h, -⟩
  · rw [h]
    exact Nat.zero_le _
  · exact h

/-- Claims storage for `count` entries of `size` bytes each; a claim that is not granted is an error. -/
def reserve (size count : Nat) : Except DecodeError Unit :=
  if HasRoom size count then .ok () else .error (.tooLarge count)

/-- The columns whose number of cells is not `rows`. -/
def firstUneven? (rows : Nat) : List Column → List (List Cell) → Option (Column × List Cell)
  | c :: cs, v :: vs => if v.length ≠ rows then some (c, v) else firstUneven? rows cs vs
  | _, _ => none

/-- Takes the first cell off each column. -/
def headRow : List (List Cell) → Row
  | [] => []
  | [] :: vs => .null :: headRow vs
  | (c :: _) :: vs => c :: headRow vs

/-- The first `n` rows of the columns. -/
def rowsOf : (n : Nat) → List (List Cell) → List Row
  | 0, _ => []
  | n + 1, vs => headRow vs :: rowsOf n (vs.map List.tail)

/-- Turns columns of `rows` cells each into rows. -/
def transpose (columns : List Column) (rows : Nat) (values : List (List Cell)) :
    Except DecodeError (List Row) :=
  if values.length ≠ columns.length then .error (.columnCount columns.length values.length)
  else match firstUneven? rows columns values with
    | some (c, v) => .error (.rowCount c.name rows v.length)
    | none => do
      reserve rowBytes rows
      return rowsOf rows values

end DataClient
