import DataClient.Arrow.Reader
import DataClient.Arrow.Shown
import DataClient.Table.Transpose

/-!
# Columnar results

A payload of columns is turned into a table: its fields become columns, every batch is turned into
rows, and the rows of all batches follow each other. One column that cannot be converted fails the
whole payload.

Cells are kept for booleans, integers, floating point numbers, texts, bytes and instants; every
other type is shown as text. Numbers are exact: an integer that a cell cannot hold is an error, and
an instant is the millisecond it lies in. A slot marked as holding no value is null.

Conversion has two ways not to end in a table, an error of this payload and a crash.
-/

set_option autoImplicit false

namespace DataClient.Columnar

open DataClient.Arrow

variable [Allocator]

/-- A conversion: it may fail with an error of the payload, or crash. -/
abbrev Conversion := ExceptT DecodeError (Except Crash)

/-- An error of the payload. -/
def fail {α : Type} (e : DecodeError) : Conversion α := ExceptT.mk (.ok (.error e))

/-- A result that may be an error of the payload. -/
def ofResult {α : Type} (r : Except DecodeError α) : Conversion α := ExceptT.mk (.ok r)

/-- A result that may be a crash. -/
def ofAttempt {α : Type} (r : Except Crash α) : Conversion α := ExceptT.lift r

/-! ## Cells -/

/-- The cells of a vector: null for each slot that holds no value, else what `value` makes of it. -/
def cells (v : Vector) (value : Nat → Cell) : List Cell :=
  (List.range v.length).map fun i => if v.isNull i then .null else value i

/-- The bound below which unsigned integers fit into a cell. -/
def intLimit : Nat := 0x8000000000000000

/-- The first valid slot of unsigned integers whose number does not fit into a cell. -/
def firstUncastable? (v : Vector) (width : Nat) (data : ByteArray) : Option Nat :=
  ((List.range v.length).find? fun i => !v.isNull i && intLimit ≤ Vector.slotNat data width i).map
    (Vector.slotNat data width)

/-- An integer as a cell. -/
def intCell (signed : Bool) (width : Nat) (data : ByteArray) (i : Nat) : Cell :=
  .int (Int64.ofInt (if signed then Vector.slotInt data width i else Vector.slotNat data width i))

/-- The nearest number of 64 bits. -/
def saturate (n : Int) : Int64 :=
  Int64.ofInt (max (-0x8000000000000000) (min n 0x7FFFFFFFFFFFFFFF))

/-- The millisecond that `value` units after the epoch lie in. -/
def millisOf (unit : TimeUnit) (value : Int) : Int64 :=
  match unit with
  | .second => saturate (value * 1000)
  | .millisecond => Int64.ofInt value
  | .microsecond => Int64.ofInt (value.fdiv 1000)
  | .nanosecond => Int64.ofInt (value.fdiv 1000000)

def millisPerDay : Int := 86400000

/-- Whether the values of a type are texts. -/
def isText : DataType → Bool
  | .utf8 => true
  | .largeUtf8 => true
  | .utf8View => true
  | _ => false

/-- A run of bytes as a cell. -/
def bytesCell (type : DataType) (value : ByteArray) : Cell :=
  if isText type then .string (Text.ofBytesLossy value) else .bytes value

/-- The cells that storage is claimed for when `count` cells are collected. -/
def collectedCells (count : Nat) : Nat := if count = 0 then 0 else max 4 count

/-- Claims storage for cells as they are collected. Such a claim is no error where it is too large or
not granted: the first panics, and the second ends the program. -/
def collect (count : Nat) : Except Crash Unit :=
  if capacityLimit < cellBytes * collectedCells count then .error (.capacityOverflow count)
  else if HasRoom cellBytes (collectedCells count) then .ok ()
  else .error (.outOfMemory count)

/-- The cell of a slot that is shown as text. -/
def shownCell (v : Vector) (i : Nat) : Except Crash Cell :=
  if v.isNull i then .ok .null else (v.text i).finish.map .string

/-- The cells of a vector that is shown as texts. Before that every zone in its type has to be
known, and storage is claimed. -/
def shown (name : String) (v : Vector) : Conversion (List Cell) :=
  match v.type.zones.find? fun z => (Time.offset? z).isNone with
  | some zone => fail (.value name (.namedZone zone))
  | none => do
    ofResult (reserve cellBytes v.length)
    ofAttempt ((List.range v.length).mapM (shownCell v))

/-- The cells of a vector of values of fixed width. -/
def fixedCells (name : String) (v : Vector) (type : DataType) (width : Nat) (data : ByteArray) :
    Conversion (List Cell) :=
  match type with
  | .int signed _ =>
    match (if signed then none else firstUncastable? v width data) with
    | some n => fail (.value name (.uncastable n))
    | none => return cells v (intCell signed width data)
  | .float16 => return cells v fun i => .float (Number.Parts.ofHalf (Vector.slotNat data 2 i)).toDouble
  | .float32 => return cells v fun i => .float (Number.Parts.ofSingle (Vector.slotNat data 4 i)).toDouble
  | .float64 => return cells v fun i => .float (Float.ofBits (UInt64.ofNat (Vector.slotNat data 8 i)))
  | .timestamp unit _ => return cells v fun i => .timestamp (millisOf unit (Vector.slotInt data 8 i))
  | .date32 => return cells v fun i => .timestamp (Int64.ofInt (Vector.slotInt data 4 i * millisPerDay))
  | .date64 => return cells v fun i => .timestamp (Int64.ofInt (Vector.slotInt data 8 i))
  | .fixedSizeBinary _ => do
    ofAttempt (collect v.length)
    return cells v fun i => .bytes (data.extract (i * width) (i * width + width))
  | _ => shown name v

/-- The cells of the column of a name. -/
def cellsOf (name : String) (v : Vector) : Conversion (List Cell) :=
  match v with
  | .null length => do
    ofResult (reserve cellBytes length)
    return List.replicate length .null
  | .boolean _ bits => return cells v fun i => .bool (Bytes.bit bits i)
  | .fixed type _ width data => fixedCells name v type width data
  | .runsOfBytes type _ width offsets data =>
    return cells v fun i => bytesCell type (Vector.run offsets data width i)
  | .views type _ slots buffers => return cells v fun i => bytesCell type (Vector.view slots buffers i)
  | _ => shown name v

/-! ## Tables -/

def column (f : Field) : Column := ⟨f.info.name, f.type.name, f.info.nullable⟩

/-- The cells of all columns of a batch. -/
def batchCells : List Column → List Vector → Conversion (List (List Cell))
  | c :: cs, v :: vs => do
    let cells ← cellsOf c.name v
    return cells :: (← batchCells cs vs)
  | _, _ => return []

def batchRows (columns : List Column) (b : Batch) : Conversion (List Row) :=
  if b.columns.length ≠ columns.length then
    fail (.columnCount columns.length b.columns.length)
  else do
    let values ← batchCells columns b.columns
    ofResult (transpose columns b.rowCount values)

/-- The rows of all batches. -/
def allRows (columns : List Column) : List Batch → Conversion (List Row)
  | [] => return []
  | b :: rest => do
    let rows ← batchRows columns b
    return rows ++ (← allRows columns rest)

/-- The table of a payload that has been read. -/
def tableOf (p : Payload) : Conversion Table := do
  let columns := p.schema.map column
  let rows ← allRows columns p.batches
  ofResult (Table.ofParts columns rows)

def decode (payload : ByteArray) : Conversion Table :=
  if payload.isEmpty then fail .empty
  else do
    let p ← ExceptT.adapt .arrow (readPayload payload)
    tableOf p

end DataClient.Columnar
