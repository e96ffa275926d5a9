import DataClient.Arrow.Message
import DataClient.Arrow.Vector

/-!
# Loading vectors

A record batch lists, for all its columns and what is nested in them, lengths and buffers in one
order, outer before inner. Loading takes them off those lists, column by column, and accepts a
vector only if its buffers are long enough, its offsets stay in order and in bounds, its texts are
well formed, its keys and variants exist, and nothing that may not be null is.
-/

set_option autoImplicit false

namespace DataClient.Arrow

/-- A buffer, and where it lay relative to an aligned address. -/
structure Chunk where
  bytes : ByteArray
  address : Nat

/-- What a batch is loaded from. -/
structure Source where
  dictionaries : List (Int × Vector)
  compressed : Bool
  /-- Unions have a bitmap of their own in older payloads. -/
  unionValidity : Bool
  body : ByteArray
  /-- Where the body lies relative to an aligned address. -/
  address : Nat

/-- What has not been taken yet. -/
structure Pending where
  nodes : List (Int × Int)
  buffers : List (Int × Int)
  variadicCounts : List Int

/-- A step of loading; it fails with the reason why the payload is refused. -/
abbrev Load := StateT Pending (Except String)

namespace Load

/-- Refuses the payload. -/
def refuse {α : Type} (why : String) : Load α := StateT.lift (.error why)

/-- Goes on only if a condition holds. -/
def ensure (condition : Bool) (why : String) : Load Unit :=
  if condition then return () else refuse why

/-- A length as a count; a negative one becomes a huge one. -/
def countOf (n : Int) : Nat := Bytes.unsigned 64 n

/-- Takes the length and the number of nulls of the next array. -/
def node : Load (Nat × Int) := do
  let p ← get
  match p.nodes with
  | (length, nulls) :: rest =>
    set { p with nodes := rest }
    return (countOf length, nulls)
  | [] => refuse "there are fewer arrays than the schema needs"

/-- A compressed buffer: its length when it is not compressed, or minus one if it never was, stands
before it. Only buffers that never were compressed can be read. -/
def unpack (c : Chunk) : Load Chunk :=
  if c.bytes.size = 0 then return c
  else match Bytes.int? c.bytes 0 8 with
    | some 0 => return ⟨ByteArray.empty, 0⟩
    | some (-1) => return ⟨c.bytes.extract 8 c.bytes.size, c.address + 8⟩
    | _ => refuse "a buffer is compressed"

/-- Takes the next buffer. -/
def buffer (s : Source) : Load Chunk := do
  let p ← get
  match p.buffers with
  | (offset, length) :: rest =>
    set { p with buffers := rest }
    match Bytes.slice? s.body (countOf offset) (countOf length) with
    | some bytes =>
      let c : Chunk := ⟨bytes, s.address + countOf offset⟩
      if s.compressed then unpack c else return c
    | none => refuse "a buffer lies outside the body"
  | [] => refuse "there are fewer buffers than the schema needs"

/-- Takes `n` buffers. -/
def buffers (s : Source) : (n : Nat) → Load (List ByteArray)
  | 0 => return []
  | n + 1 => do
    let c ← buffer s
    return c.bytes :: (← buffers s n)

/-- Length and bitmap of an array that declares `nulls` nulls. The bitmap counts, not the
declaration, unless that says that there are none. -/
def shape (length : Nat) (nulls : Int) (bitmap : ByteArray) : Load Shape := do
  if nulls ≤ 0 then return ⟨length, none⟩
  else
    ensure (length ≤ 8 * bitmap.size) "a bitmap is too short"
    let full := (List.range length).all (Bytes.bit bitmap)
    return ⟨length, if full then none else some bitmap⟩

/-! ## Checks -/

/-- Offsets of `width` bytes: one more than there are slots, in order, and none past `limit`. A
vector without slots may have none at all. -/
def offsetsOk (offsets : ByteArray) (width length limit : Nat) : Bool :=
  if length = 0 && offsets.size = 0 then true
  else
    (length + 1) * width ≤ offsets.size && offsets.size % width = 0
      && (List.range (length + 1)).all fun i =>
        let o := Vector.slotInt offsets width i
        0 ≤ o && o ≤ limit && (i = 0 || Vector.slotInt offsets width (i - 1) ≤ o)

/-- Whether a character begins, or the text ends, at a position of a well-formed text. -/
def isBoundary (data : ByteArray) (i : Nat) : Bool :=
  match data[i]? with
  | some x => i = 0 || x < 0x80 || 0xC0 ≤ x
  | none => i = data.size

/-- The texts between offsets are well formed: they begin and end between characters if all of the
data is well formed, and else each is well formed by itself. -/
def textsOk (offsets data : ByteArray) (width length : Nat) : Bool :=
  if data.validateUTF8 then
    (List.range length).all fun i =>
      isBoundary data (Vector.slotNat offsets width i)
        && isBoundary data (Vector.slotNat offsets width (i + 1))
  else (List.range length).all fun i => (Vector.run offsets data width i).validateUTF8

/-- A view: a short one has nothing behind its bytes, a long one lies in its buffer and repeats its
first four bytes. -/
def viewOk (slots : ByteArray) (buffers : List ByteArray) (text : Bool) (i : Nat) : Bool :=
  let start := i * 16
  let n := (Bytes.u32? slots start).getD 0
  let value := Vector.view slots buffers i
  (if n ≤ Vector.inlineLength then
      (slots.extract (start + 4 + n) (start + 16)).data.all (· == 0)
    else
      match buffers[(Bytes.u32? slots (start + 8)).getD 0]? with
      | some b =>
        (Bytes.u32? slots (start + 12)).getD 0 + n ≤ b.size
          && value.extract 0 4 == slots.extract (start + 4) (start + 8)
      | none => false)
    && (!text || value.validateUTF8)

/-- Keys of slots that hold a value are positions of values. -/
def keysOk (s : Shape) (signed : Bool) (width : Nat) (keys : ByteArray) (values : Nat) : Bool :=
  (List.range s.length).all fun i =>
    s.isNull i ||
      (let k := if signed then Vector.slotInt keys width i else Vector.slotNat keys width i
       0 ≤ k && k < values)

/-- Ends of runs are positive and increase. -/
def endsOk (ends : ByteArray) (width count : Nat) : Bool :=
  (List.range count).all fun i =>
    let e := Vector.slotInt ends width i
    0 < e && (i = 0 || Vector.slotInt ends width (i - 1) < e)

/-! ## Nulls of nested vectors -/

mutual

/-- Whether a slot of a vector inside a struct has no value, however that is encoded, or nothing if
the vector cannot say. -/
def hidesNull (i : Nat) : Vector → Bool
  | .null _ => true
  | .dictionary _ s signed width keys values =>
    s.isNull i ||
      (let k := if signed then Vector.slotInt keys width i else Vector.slotNat keys width i
       0 ≤ k && k < values.length && values.isNull k.toNat)
  | .runs _ _ width ends count values =>
    let r := Vector.runAt ends width count i
    r < count && hidesNull r values
  | .union _ _ numbers offsets variants =>
    variantHidesNull (Vector.variantNumber numbers i) (Vector.variantSlot offsets i) variants
  | .boolean s _ => s.isNull i
  | .fixed _ s _ _ => s.isNull i
  | .runsOfBytes _ s _ _ _ => s.isNull i
  | .views _ s _ _ => s.isNull i
  | .list _ s _ _ _ => s.isNull i
  | .fixedList _ s _ _ => s.isNull i
  | .struct _ s _ => s.isNull i
  | .map _ s _ _ _ => s.isNull i

/-- The same for the variant of a number. -/
def variantHidesNull (number : Int) (i : Nat) : List (Int × String × Vector) → Bool
  | [] => false
  | (n, _, v) :: rest => if n = number then hidesNull i v else variantHidesNull number i rest

end

/-- Where a run begins: at the end of the run before it. -/
def runStart (ends : ByteArray) (width r : Nat) : Nat :=
  if r = 0 then 0 else Vector.slotNat ends width (r - 1)

/-- Whether a vector has any slot without a value, however that is encoded. -/
def hidesNulls (v : Vector) : Bool :=
  match v with
  | .null n => 0 < n
  | .dictionary _ s _ _ _ _ => (List.range s.length).any fun i => hidesNull i v
  | .runs _ n width ends count values =>
    (List.range count).any fun r => runStart ends width r < n && hidesNull r values
  | .union _ n _ _ _ => (List.range n).any fun i => hidesNull i v
  | v => v.hasNulls

/-- Whether a field of a struct that may not be null has a slot without a value where the struct
has one. -/
def exposesNull (s : Shape) (v : Vector) : Bool :=
  match s.validity with
  | none => hidesNulls v
  | some _ => (List.range s.length).any fun i => !s.isNull i && hidesNull i v

/-- The bytes of a value of fixed width. -/
def fixedWidth? : DataType → Option Nat
  | .int _ width => some width.bytes
  | .float16 => some 2
  | .float32 => some 4
  | .float64 => some 8
  | .timestamp _ _ => some 8
  | .date32 => some 4
  | .date64 => some 8
  | .time32 _ => some 4
  | .time64 _ => some 8
  | .duration _ => some 8
  | .interval .yearMonth => some 4
  | .interval .dayTime => some 8
  | .interval .monthDayNano => some 16
  | .decimal128 _ _ => some 16
  | .decimal256 _ _ => some 32
  | .fixedSizeBinary size => if 0 ≤ size then some size.toNat else none
  | _ => none

/-! ## Vectors -/

/-- Values of fixed width. -/
def fixed (s : Source) (type : DataType) : Load Vector := do
  let (length, nulls) ← node
  let bitmap ← buffer s
  let data ← buffer s
  match fixedWidth? type with
  | none => refuse "a type has no width"
  | some width =>
    let shape ← shape length nulls bitmap.bytes
    ensure (length * width ≤ data.bytes.size) "a buffer is too short"
    return .fixed type shape width data.bytes

/-- Runs of bytes, well-formed texts if `text` is set. -/
def bytes (s : Source) (type : DataType) (width : Nat) (text : Bool) : Load Vector := do
  let (length, nulls) ← node
  let bitmap ← buffer s
  let offsets ← buffer s
  let data ← buffer s
  let shape ← shape length nulls bitmap.bytes
  ensure (offsetsOk offsets.bytes width length data.bytes.size) "offsets are out of order or bounds"
  ensure (!text || textsOk offsets.bytes data.bytes width length) "a text is malformed"
  return .runsOfBytes type shape width offsets.bytes data.bytes

/-- Views, of well-formed texts if `text` is set. -/
def views (s : Source) (type : DataType) (text : Bool) : Load Vector := do
  let p ← get
  match p.variadicCounts with
  | [] => refuse "the number of data buffers is missing"
  | count :: rest =>
    set { p with variadicCounts := rest }
    let all ← buffers s (min (count + 2).toNat (p.buffers.length + 1))
    let (length, nulls) ← node
    match all with
    | bitmap :: slots :: data =>
      let shape ← shape length nulls bitmap
      ensure (length * 16 ≤ slots.size && slots.size % 16 = 0) "a buffer is too short"
      ensure ((List.range length).all (viewOk slots data text)) "a view is malformed"
      return .views type shape slots data
    | _ => refuse "a column of views has too few buffers"

def booleans (s : Source) : Load Vector := do
  let (length, nulls) ← node
  let bitmap ← buffer s
  let bits ← buffer s
  let shape ← shape length nulls bitmap.bytes
  ensure ((length + 7) / 8 ≤ bits.bytes.size) "a buffer is too short"
  return .boolean shape bits.bytes

/-- Keys into the values of a dictionary that has been read before. -/
def keys (s : Source) (type : DataType) (info : FieldInfo) (signed : Bool) (width : IntWidth)
    (valueType : DataType) : Load Vector := do
  let (length, nulls) ← node
  let bitmap ← buffer s
  let data ← buffer s
  match s.dictionaries.lookup info.dictionaryId with
  | none => refuse "a dictionary is missing"
  | some values =>
    let shape ← shape length nulls bitmap.bytes
    ensure (length * width.bytes ≤ data.bytes.size && data.bytes.size % width.bytes = 0)
      "a buffer is too short"
    ensure (valueType.same values.type) "a dictionary has values of another type"
    ensure (keysOk shape signed width.bytes data.bytes values.length) "a key has no value"
    return .dictionary type shape signed width.bytes data.bytes values

def nulls : Load Vector := do
  let p ← get
  match p.nodes with
  | (length, nulls) :: rest =>
    set { p with nodes := rest }
    ensure (length = nulls) "a column of nulls has other values"
    return .null (countOf length)
  | [] => refuse "there are fewer arrays than the schema needs"

/-- The number of slots of a variant as a union sees it, in four signed bytes. -/
def variantLength (v : Vector) : Int := Bytes.signed 32 (v.length % 0x100000000)

/-- Every slot of a union names a variant, and a slot that this variant has. -/
def variantsOk (length : Nat) (numbers : ByteArray) (offsets : Option ByteArray)
    (variants : List (Int × String × Vector)) : Bool :=
  variants.all (fun (n, _, _) => 0 ≤ n)
    && (match offsets with
      | none => variants.all fun (_, _, v) => v.length = length
      | some _ => true)
    && (List.range length).all fun i =>
      match variants.lookup (Vector.variantNumber numbers i) with
      | none => false
      | some (_, v) =>
        variantLength v != -0x80000000 &&
          match offsets with
          | none => true
          | some o => 0 ≤ Vector.slotInt o 4 i && Vector.slotInt o 4 i < variantLength v

/-- A struct of fields that have been loaded. -/
def structOf (type : DataType) (length : Nat) (nulls : Int) (bitmap : ByteArray)
    (fields : List (FieldInfo × Vector)) : Load Vector := do
  let shape ← shape length nulls bitmap
  let fieldsByName := fields.map fun (f, v) => (f.name, v)
  match fields with
  | [] => return .struct type shape []
  | (_, first) :: _ =>
    ensure (nulls ≤ 0 || length = first.length) "a struct has another length than its fields"
    ensure (fields.all fun (_, v) => v.length = first.length) "the fields of a struct differ in length"
    let shape : Shape := ⟨first.length, shape.validity⟩
    ensure (fields.all fun (f, v) => f.nullable || !exposesNull shape v) "a field must not be null"
    return .struct type shape fieldsByName

/-- Whether items that must not be null have nulls outside of the lists that are null. -/
def itemsExposeNull (s : Shape) (size : Nat) (items : Vector) : Bool :=
  match s.validity with
  | none => items.hasNulls
  | some _ =>
    items.hasNulls && (List.range s.length).any fun i =>
      !s.isNull i && (List.range size).any fun j => items.isNull (i * size + j)

/-- Lists between offsets of `width` bytes, whose items `items` loads. -/
def listOf (s : Source) (type : DataType) (width : Nat) (item : FieldInfo) (items : Load Vector) :
    Load Vector := do
  let (length, nulls) ← node
  let bitmap ← buffer s
  let offsets ← buffer s
  let loaded ← items
  let shape ← shape length nulls bitmap.bytes
  ensure (offsetsOk offsets.bytes width length loaded.length) "offsets are out of order or bounds"
  ensure (item.nullable || !loaded.hasNulls) "an item must not be null"
  return .list type shape width offsets.bytes loaded

mutual

/-- Loads a vector of a type; `info` is the field it belongs to. -/
def vector (s : Source) (info : FieldInfo) : DataType → Load Vector
  | .null => nulls
  | .boolean => booleans s
  | .utf8 => bytes s .utf8 4 true
  | .largeUtf8 => bytes s .largeUtf8 8 true
  | .binary => bytes s .binary 4 false
  | .largeBinary => bytes s .largeBinary 8 false
  | .utf8View => views s .utf8View true
  | .binaryView => views s .binaryView false
  | .list item type => listOf s (.list item type) 4 item (vector s item type)
  | .largeList item type => listOf s (.largeList item type) 8 item (vector s item type)
  | .fixedSizeList item type size => do
    let (length, nulls) ← node
    let bitmap ← buffer s
    let items ← vector s item type
    let shape ← shape length nulls bitmap.bytes
    ensure (0 ≤ size) "a list has a negative size"
    let n := size.toNat
    ensure (length * n ≤ items.length) "there are fewer items than lists need"
    ensure (item.nullable || !itemsExposeNull shape n items) "an item must not be null"
    return .fixedList (.fixedSizeList item type size) shape n items
  | .struct fields => do
    let (length, nulls) ← node
    let bitmap ← buffer s
    let loaded ← fieldVectors s fields
    -- Any declared number but zero counts as having nulls.
    structOf (.struct fields) length (if nulls = 0 then 0 else 1) bitmap.bytes loaded
  | .map entries type sorted => do
    let loaded ← listOf s (.map entries type sorted) 4 entries (vector s entries type)
    match loaded with
    | .list t shape _ offsets (.struct _ _ [(_, keys), (_, values)]) =>
      return .map t shape offsets keys values
    | _ => refuse "a map has no keys and values"
  | .union variants dense => do
    let (length, _) ← node
    if s.unionValidity then
      let _ ← buffer s
    let numbers ← buffer s
    ensure (length ≤ numbers.bytes.size) "a buffer is too short"
    let offsets ← if dense then do
        let o ← buffer s
        ensure (length * 4 ≤ o.bytes.size && o.address % 4 = 0) "offsets are too short or misaligned"
        pure (some o.bytes)
      else pure none
    let loaded ← variantVectors s variants
    ensure (variantsOk length numbers.bytes offsets loaded) "a slot of a union has no variant"
    return .union (.union variants dense) length numbers.bytes offsets loaded
  | .runEndEncoded ends endsType values valuesType => do
    let (length, _) ← node
    let loadedEnds ← vector s ends endsType
    let loadedValues ← vector s values valuesType
    match loadedEnds with
    | .fixed (.int true w) shape width data =>
      ensure (!ends.nullable && w != .w8) "ends of runs have a wrong type"
      ensure (shape.validity.isNone && shape.length = loadedValues.length) "runs and values differ"
      ensure (endsOk data width shape.length) "ends of runs are out of order"
      return .runs (.runEndEncoded ends endsType values valuesType) length width data shape.length loadedValues
    | _ => refuse "ends of runs have a wrong type"
  | .dictionary signed width values => keys s (.dictionary signed width values) info signed width values
  | type => fixed s type

/-- Loads the fields of a struct. -/
def fieldVectors (s : Source) : List (FieldInfo × DataType) → Load (List (FieldInfo × Vector))
  | [] => return []
  | (f, t) :: rest => do
    let v ← vector s f t
    return (f, v) :: (← fieldVectors s rest)

/-- Loads the variants of a union. -/
def variantVectors (s : Source) : List (Int × FieldInfo × DataType) → Load (List (Int × String × Vector))
  | [] => return []
  | (n, f, t) :: rest => do
    let v ← vector s f t
    return (n, f.name, v) :: (← variantVectors s rest)

end

end Load

end DataClient.Arrow
