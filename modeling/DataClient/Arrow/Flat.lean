import DataClient.Bytes.Words

/-!
# Tables in a flat buffer

The metadata of a columnar payload is a graph of tables laid out in one buffer. A table begins with
the signed distance back to its directory, which gives for each member the distance from the table
to its value, or zero if the member is absent. Strings, vectors and tables are reached through one
more unsigned distance.

The accessors below answer absent or unreachable members with a default; a buffer that has passed
`Verify` has no unreachable ones.
-/

set_option autoImplicit false

namespace DataClient.Arrow

/-- A table: the buffer it lies in and its position. -/
structure Flat where
  buffer : ByteArray
  pos : Nat

namespace Flat

/-- The root table of a buffer. -/
def root (buffer : ByteArray) : Flat := ⟨buffer, (Bytes.u32? buffer 0).getD 0⟩

/-- The directory of a table. -/
def directory (t : Flat) : Nat :=
  ((t.pos : Int) - (Bytes.int? t.buffer t.pos 4).getD 0).toNat

/-- The distance in the directory at which a member is listed. -/
def listedAt (member : Nat) : Nat := 4 + 2 * member

/-- The position of the value of a member. -/
def member? (t : Flat) (member : Nat) : Option Nat :=
  let dir := t.directory
  let size := (Bytes.u16? t.buffer dir).getD 0
  if listedAt member + 2 ≤ size then
    match Bytes.u16? t.buffer (dir + listedAt member) with
    | some 0 => none
    | some d => some (t.pos + d)
    | none => none
  else none

/-- A signed number of `size` bytes. -/
def int (t : Flat) (member size : Nat) (default : Int) : Int :=
  match t.member? member with
  | some p => (Bytes.int? t.buffer p size).getD default
  | none => default

/-- A number of one byte. -/
def byte (t : Flat) (member : Nat) : Nat :=
  match t.member? member with
  | some p => ((t.buffer[p]?).map UInt8.toNat).getD 0
  | none => 0

/-- A flag; absent flags are unset. -/
def flag (t : Flat) (member : Nat) : Bool := t.byte member != 0

/-- Where the value behind a distance lies. -/
def follow (t : Flat) (p : Nat) : Nat := p + (Bytes.u32? t.buffer p).getD 0

def table? (t : Flat) (member : Nat) : Option Flat :=
  (t.member? member).map fun p => ⟨t.buffer, t.follow p⟩

/-- The start and the length of a vector. -/
def vector? (t : Flat) (member : Nat) : Option (Nat × Nat) :=
  (t.member? member).map fun p =>
    let v := t.follow p
    (v + 4, (Bytes.u32? t.buffer v).getD 0)

/-- A vector of elements of `size` bytes, each read at its position. -/
def elements {α : Type} (start size : Nat) (read : Nat → α) (n : Nat) : List α :=
  (List.range n).map fun i => read (start + i * size)

/-- A vector of tables. -/
def tables? (t : Flat) (member : Nat) : Option (List Flat) :=
  (t.vector? member).map fun (start, n) => elements start 4 (fun p => ⟨t.buffer, t.follow p⟩) n

/-- A vector of signed numbers of `size` bytes. -/
def ints? (t : Flat) (member size : Nat) : Option (List Int) :=
  (t.vector? member).map fun (start, n) =>
    elements start size (fun p => (Bytes.int? t.buffer p size).getD 0) n

/-- A vector of groups of `width` signed numbers of eight bytes. -/
def groups? (t : Flat) (member width : Nat) : Option (List (List Int)) :=
  (t.vector? member).map fun (start, n) =>
    elements start (8 * width)
      (fun p => (List.range width).map fun i => (Bytes.int? t.buffer (p + 8 * i) 8).getD 0) n

def string? (t : Flat) (member : Nat) : Option String :=
  (t.vector? member).map fun (start, n) =>
    ((Bytes.slice? t.buffer start n).bind String.fromUTF8?).getD ""

end Flat

end DataClient.Arrow
