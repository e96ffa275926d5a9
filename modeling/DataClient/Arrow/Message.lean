import DataClient.Arrow.DataType
import DataClient.Arrow.Verify
import DataClient.Json.Basic

/-!
# Messages

What the metadata of a payload says: schemas, record batches and dictionary batches, read from a
sound flat buffer. Some schemas are sound as buffers but name no type, such as an integer of
twelve bits; those have no `Schema`.
-/

set_option autoImplicit false

namespace DataClient.Arrow

/-- The numbers of columns, buffers and rows of a record batch. -/
structure BatchHeader where
  /-- The declared number of rows. -/
  length : Int
  /-- Length and number of nulls of each array, outer before inner. -/
  nodes : Option (List (Int × Int))
  /-- Position and length of each buffer in the body. -/
  buffers : Option (List (Int × Int))
  /-- The number of the compression, if the buffers are compressed. -/
  compression : Option Int
  /-- How many data buffers each column of views has. -/
  variadicCounts : List Int

/-- What a message carries. -/
inductive Header
  | none
  | schema (table : Flat)
  | dictionary (id : Int) (isDelta : Bool) (data : Option BatchHeader)
  | batch (header : BatchHeader)
  | other (number : Nat)

/-- A message: the version of its format, what it carries, and the length of its body. -/
structure Message where
  version : Int
  header : Header
  bodyLength : Int

/-- Pairs of numbers. -/
def pairs (groups : List (List Int)) : List (Int × Int) :=
  groups.map fun g => (g.getD 0 0, g.getD 1 0)

/-- The numbers of a record batch. -/
def BatchHeader.ofFlat (t : Flat) : BatchHeader where
  length := t.int 0 8 0
  nodes := (t.groups? 1 2).map pairs
  buffers := (t.groups? 2 2).map pairs
  compression := (t.table? 3).map fun c => c.int 0 1 0
  variadicCounts := (t.ints? 4 8).getD []

/-- What a message table carries. -/
def Header.ofFlat (t : Flat) : Header :=
  match t.byte 1, t.table? 2 with
  | 0, _ => .none
  | 1, some h => .schema h
  | 2, some h => .dictionary (h.int 0 8 0) (h.flag 2) ((h.table? 1).map BatchHeader.ofFlat)
  | 3, some h => .batch (.ofFlat h)
  | n, _ => .other n

/-- Reads a message, if its bytes are a sound one. -/
def Message.ofBytes? (b : ByteArray) : Option Message :=
  if Verify.root .message b then
    let t := Flat.root b
    some ⟨t.int 0 2 0, Header.ofFlat t, t.int 3 8 0⟩
  else none

/-! ## Schemas -/

/-- An integer type by its bits. -/
def intWidth? (bits : Int) : Option IntWidth :=
  if bits = 8 then some .w8 else if bits = 16 then some .w16
  else if bits = 32 then some .w32 else if bits = 64 then some .w64 else none

/-- A unit of time by its number. -/
def timeUnit? (n : Int) : Option TimeUnit :=
  if n = 0 then some .second else if n = 1 then some .millisecond
  else if n = 2 then some .microsecond else if n = 3 then some .nanosecond else none

/-- Annotations that have both a key and a value, the last of each key. -/
def metadataOf (tables : Option (List Flat)) : List (String × String) :=
  Json.members ((tables.getD []).filterMap fun t =>
    match t.string? 0, t.string? 1 with
    | some k, some v => some (k, v)
    | _, _ => none)

/-- Numbers the variants of a union. Numbers are those given, cut to one signed byte, or else the
positions; no number up to the one behind the last variant is used twice. -/
def numberVariants? {α : Type} (ids : Option (List Int)) (variants : List α) : Option (List (Int × α)) :=
  let numbers := match ids with
    | none => (List.range (Bytes.signed 8 (variants.length % 256)).toNat).map Int.ofNat
    | some ids => ids.map fun i => Bytes.signed 8 (Bytes.unsigned 8 i)
  let used := numbers.take (variants.length + 1)
  if (used.map fun i => i % 128).Nodup then some (numbers.zip variants) else none

/-- The type of a field, leaving dictionary encoding aside; `field` reads the fields nested in it. -/
def typeOfFlat? (field : Flat → Option Field) (t : Flat) : Option DataType := do
  let parameters := t.table? 3
  let children : Option (List Flat) := t.tables? 5
  let one : Option (FieldInfo × DataType) := do
    match ← List.mapM field (← children) with
    | [f] => some (f.info, f.type)
    | _ => none
  match t.byte 2 with
  | 1 => return .null
  | 2 => do
    let p ← parameters
    return .int (p.flag 1) (← intWidth? (p.int 0 4 0))
  | 3 => do
    let n := (← parameters).int 0 2 0
    if n = 0 then return .float16 else if n = 1 then return .float32
    else if n = 2 then return .float64 else none
  | 4 => return .binary
  | 5 => return .utf8
  | 6 => return .boolean
  | 7 => do
    let p ← parameters
    let precision := p.int 0 4 0
    let scale := p.int 1 4 0
    let bits := p.int 2 4 128
    if precision < 0 ∨ 256 ≤ precision ∨ scale < -128 ∨ 128 ≤ scale then none
    else if bits = 128 then return .decimal128 precision.toNat scale
    else if bits = 256 then return .decimal256 precision.toNat scale else none
  | 8 => do
    let n := (← parameters).int 0 2 1
    if n = 0 then return .date32 else if n = 1 then return .date64 else none
  | 9 => do
    let p ← parameters
    let unit ← timeUnit? (p.int 0 2 1)
    let bits := p.int 1 4 32
    match unit with
    | .second => if bits = 32 then return .time32 unit else none
    | .millisecond => if bits = 32 then return .time32 unit else none
    | .microsecond => if bits = 64 then return .time64 unit else none
    | .nanosecond => if bits = 64 then return .time64 unit else none
  | 10 => do
    let p ← parameters
    return .timestamp (← timeUnit? (p.int 0 2 0)) (p.string? 1)
  | 11 => do
    let n := (← parameters).int 0 2 0
    if n = 0 then return .interval .yearMonth else if n = 1 then return .interval .dayTime
    else if n = 2 then return .interval .monthDayNano else none
  | 12 => do
    let (f, t) ← one
    return .list f t
  | 13 => do
    let fs ← List.mapM field (children.getD [])
    return .struct (fs.map fun f => (f.info, f.type))
  | 14 => do
    let p ← parameters
    let mode := p.int 0 2 0
    if mode != 0 && mode != 1 then none
    let fs ← List.mapM field (children.getD [])
    return .union (← numberVariants? (p.ints? 1 4) (fs.map fun f => (f.info, f.type))) (mode = 1)
  | 15 => return .fixedSizeBinary ((← parameters).int 0 4 0)
  | 16 => do
    let (f, t) ← one
    return .fixedSizeList f t ((← parameters).int 0 4 0)
  | 17 => do
    let p ← parameters
    let (f, t) ← one
    return .map f t (p.flag 0)
  | 18 => return .duration (← timeUnit? ((← parameters).int 0 2 1))
  | 19 => return .largeBinary
  | 20 => return .largeUtf8
  | 21 => do
    let (f, t) ← one
    return .largeList f t
  | 22 => do
    match ← List.mapM field (← children) with
    | [ends, values] => return .runEndEncoded ends.info ends.type values.info values.type
    | _ => none
  | 23 => return .binaryView
  | 24 => return .utf8View
  | _ => none

/-- The field that a table describes, `depth` bounding how deeply fields are nested. -/
def fieldOfFlat? : (depth : Nat) → Flat → Option Field
  | 0, _ => none
  | depth + 1, t => do
    let name ← t.string? 0
    let type ← typeOfFlat? (fieldOfFlat? depth) t
    let metadata := metadataOf (t.tables? 6)
    let type ← match t.table? 4 with
      | none => some type
      | some d => do
        let key ← d.table? 1
        let width ← intWidth? (key.int 0 4 0)
        some (.dictionary (key.flag 1) width type)
    let (id, ordered) := match t.table? 4 with
      | none => (0, false)
      | some d => (d.int 0 8 0, d.flag 2)
    return ⟨⟨name, t.flag 1, id, ordered, metadata⟩, type⟩

/-- The schema that a table describes, if all its types are known. -/
def schemaOfFlat? (t : Flat) : Option Schema := do
  let fields ← t.tables? 1
  let bigEndian := t.int 0 2 0 = 1
  -- A decimal cannot be read from words of the other byte order.
  guard (!(bigEndian && fields.any fun f => f.byte 2 = 7))
  fields.mapM (fieldOfFlat? (Verify.depthLimit + 1))

end DataClient.Arrow
