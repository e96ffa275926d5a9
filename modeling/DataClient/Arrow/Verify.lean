import DataClient.Arrow.Flat
import DataClient.Arrow.Layout

/-!
# Checking a flat buffer

A buffer from outside is read only after every table, vector and string that can be reached from its
root has been found to lie inside it, aligned, with strings of well-formed text ended by a zero
byte. Tables may be nested `depthLimit` deep; how many tables and bytes are looked at is bounded
as well, because parts of a buffer may be shared.
-/

set_option autoImplicit false

namespace DataClient.Arrow.Verify

/-- How deeply tables may be nested. -/
def depthLimit : Nat := 64

/-- How many tables may be looked at. -/
def tableLimit : Nat := 1000000

/-- How many bytes may be looked at. -/
def byteLimit : Nat := 0x80000000

/-- What has been looked at so far. -/
structure Spent where
  tables : Nat
  bytes : Nat

/-- A check: it fails, or goes on with what has been spent. -/
abbrev Check := StateT Spent Option

/-- The bytes from `pos` on lie in the buffer. -/
def inside (b : ByteArray) (pos size : Nat) : Check Unit := do
  guard (pos + size ≤ b.size)
  let s ← get
  guard (s.bytes + size ≤ byteLimit)
  set { s with bytes := s.bytes + size }

/-- A position is a multiple of the alignment. -/
def aligned (pos alignment : Nat) : Check Unit := guard (pos % alignment = 0)

/-- A number lies in the buffer at a multiple of its size. -/
def scalar (b : ByteArray) (pos size : Nat) : Check Unit := do
  aligned pos size
  inside b pos size

/-- The number of two bytes at a position. -/
def u16 (b : ByteArray) (pos : Nat) : Check Nat := do
  scalar b pos 2
  StateT.lift (Bytes.u16? b pos)

/-- The position behind a distance. -/
def distance (b : ByteArray) (pos : Nat) : Check Nat := do
  scalar b pos 4
  return pos + (← StateT.lift (Bytes.u32? b pos))

/-- A vector: where its elements start, and how many there are. -/
def vector (b : ByteArray) (pos size alignment : Nat) : Check (Nat × Nat) := do
  scalar b pos 4
  let n ← StateT.lift (Bytes.u32? b pos)
  aligned (pos + 4) alignment
  inside b (pos + 4) (n * size)
  return (pos + 4, n)

/-- A string of well-formed text with a zero byte behind it. -/
def string (b : ByteArray) (pos : Nat) : Check Unit := do
  let (start, n) ← vector b pos 1 1
  guard ((b.extract start (start + n)).validateUTF8)
  guard (b[start + n]? = some 0)

/-- Checks `n` elements, four bytes apart. -/
def each (check : Nat → Check Unit) : (n pos : Nat) → Check Unit
  | 0, _ => return ()
  | n + 1, pos => do
    check pos
    each check n (pos + 4)

/-- A table that is being checked. -/
structure Open where
  pos : Nat
  directory : Nat
  directorySize : Nat

/-- The directory of a table lies in the buffer. -/
def openTable (b : ByteArray) (pos : Nat) : Check Open := do
  scalar b pos 4
  let back ← StateT.lift (Bytes.int? b pos 4)
  let dir := (pos : Int) - back
  guard (0 ≤ dir ∧ dir < b.size)
  let dir := dir.toNat
  let size ← u16 b dir
  aligned (dir + size) 2
  inside b dir size
  let s ← get
  guard (s.tables + 1 ≤ tableLimit)
  set { s with tables := s.tables + 1 }
  return ⟨pos, dir, size⟩

/-- Where the value of a member lies. -/
def member? (b : ByteArray) (t : Open) (index : Nat) : Check (Option Nat) := do
  let entry := Flat.listedAt index
  if entry < t.directorySize then
    let d ← u16 b (t.directory + entry)
    return if d = 0 then none else some (t.pos + d)
  else return none

/-- What a slot holds at a position; `table` checks a table. -/
def slot (b : ByteArray) (table : TableKind → Nat → Check Unit) (pos : Nat) : Slot → Check Unit
  | .scalar size => scalar b pos size
  | .group size => inside b pos size
  | .string => do string b (← distance b pos)
  | .table kind => do table kind (← distance b pos)
  | .scalars size alignment => do
    let _ ← vector b (← distance b pos) size alignment
  | .tables kind => do
    let (start, n) ← vector b (← distance b pos) 4 4
    each (fun p => do table kind (← distance b p)) n start
  | .union _ => return ()

def member (b : ByteArray) (table : TableKind → Nat → Check Unit) (t : Open) (m : Member) : Check Unit := do
  match m.slot with
  | .union kinds =>
    let value ← member? b t (m.index + 1)
    let key ← member? b t m.index
    match key, value with
    | none, none => guard (!m.required)
    | some k, some v => do
      scalar b k 1
      let n ← StateT.lift ((b[k]?).map UInt8.toNat)
      match kinds.lookup n with
      | some kind => table kind (← distance b v)
      | none => return ()
    | _, _ => failure
  | other =>
    match ← member? b t m.index with
    | some p => slot b table p other
    | none => guard (!m.required)

/-- A table and all that can be reached from it, at most `depth` tables deep. -/
def table (b : ByteArray) : (depth : Nat) → TableKind → Nat → Check Unit
  | 0, _, _ => failure
  | depth + 1, kind, pos => do
    let t ← openTable b pos
    kind.members.forM (member b (table b depth) t)

/-- Whether the root of a buffer is a sound table of the given kind. -/
def root (kind : TableKind) (b : ByteArray) : Bool :=
  ((do table b depthLimit kind (← distance b 0) : Check Unit).run ⟨0, 0⟩).isSome

end DataClient.Arrow.Verify
