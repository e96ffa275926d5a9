import DataClient.Arrow.DataType
import DataClient.Bytes.Words

/-!
# Vectors

The values of one column of one batch. A vector keeps the buffers it was read from and reads a slot
when it is asked for; slots are numbered from zero. `validity` is a bitmap of the slots that hold a
value and is kept only if some slot holds none. What lies under a slot without a value is arbitrary.
-/

set_option autoImplicit false

namespace DataClient.Arrow

/-- What all vectors have: a length and which slots hold a value. -/
structure Shape where
  length : Nat
  validity : Option ByteArray

/-- Whether a slot is marked as holding no value. -/
def Shape.isNull (s : Shape) (i : Nat) : Bool :=
  match s.validity with
  | some bits => !Bytes.bit bits i
  | none => false

/-- The values of a column of a batch. -/
inductive Vector
  /-- Slots that all hold no value. -/
  | null (length : Nat)
  | boolean (shape : Shape) (bits : ByteArray)
  /-- Values of `width` bytes each. -/
  | fixed (type : DataType) (shape : Shape) (width : Nat) (data : ByteArray)
  /-- Runs of bytes between offsets of `width` bytes. -/
  | runsOfBytes (type : DataType) (shape : Shape) (width : Nat) (offsets data : ByteArray)
  /-- Short values inside their slot, long ones by a reference to one of several buffers. -/
  | views (type : DataType) (shape : Shape) (slots : ByteArray) (buffers : List ByteArray)
  /-- Lists of consecutive items between offsets of `width` bytes. -/
  | list (type : DataType) (shape : Shape) (width : Nat) (offsets : ByteArray) (items : Vector)
  /-- Lists of the same number of items. -/
  | fixedList (type : DataType) (shape : Shape) (size : Nat) (items : Vector)
  | struct (type : DataType) (shape : Shape) (fields : List (String × Vector))
  /-- Entries of keys and values between offsets of four bytes. -/
  | map (type : DataType) (shape : Shape) (offsets : ByteArray) (keys values : Vector)
  /-- Slots chosen from variants by number; `offsets` is there if slots are not aligned. -/
  | union (type : DataType) (length : Nat) (numbers : ByteArray) (offsets : Option ByteArray)
      (variants : List (Int × String × Vector))
  /-- Runs of equal values, each up to its end. -/
  | runs (type : DataType) (length : Nat) (endWidth : Nat) (ends : ByteArray) (runCount : Nat) (values : Vector)
  /-- Positions in a list of values. -/
  | dictionary (type : DataType) (shape : Shape) (keySigned : Bool) (keyWidth : Nat) (keys : ByteArray)
      (values : Vector)
  deriving Inhabited

namespace Vector

/-- The number of slots. -/
def length : Vector → Nat
  | .null n => n
  | .boolean s _ => s.length
  | .fixed _ s _ _ => s.length
  | .runsOfBytes _ s _ _ _ => s.length
  | .views _ s _ _ => s.length
  | .list _ s _ _ _ => s.length
  | .fixedList _ s _ _ => s.length
  | .struct _ s _ => s.length
  | .map _ s _ _ _ => s.length
  | .union _ n _ _ _ => n
  | .runs _ n _ _ _ _ => n
  | .dictionary _ s _ _ _ _ => s.length

/-- The type of the values. -/
def type : Vector → DataType
  | .null _ => .null
  | .boolean _ _ => .boolean
  | .fixed t _ _ _ => t
  | .runsOfBytes t _ _ _ _ => t
  | .views t _ _ _ => t
  | .list t _ _ _ _ => t
  | .fixedList t _ _ _ => t
  | .struct t _ _ => t
  | .map t _ _ _ _ => t
  | .union t _ _ _ _ => t
  | .runs t _ _ _ _ _ => t
  | .dictionary t _ _ _ _ _ => t

/-- The bitmap of the slots that hold a value, if a vector keeps one. Vectors of nulls, unions and
runs keep none. -/
def validity : Vector → Option ByteArray
  | .null _ => none
  | .boolean s _ => s.validity
  | .fixed _ s _ _ => s.validity
  | .runsOfBytes _ s _ _ _ => s.validity
  | .views _ s _ _ => s.validity
  | .list _ s _ _ _ => s.validity
  | .fixedList _ s _ _ => s.validity
  | .struct _ s _ => s.validity
  | .map _ s _ _ _ => s.validity
  | .union _ _ _ _ _ => none
  | .runs _ _ _ _ _ _ => none
  | .dictionary _ s _ _ _ _ => s.validity

/-- Whether a slot is marked as holding no value by the vector's own bitmap. -/
def isNull (v : Vector) (i : Nat) : Bool :=
  match v.validity with
  | some bits => !Bytes.bit bits i
  | none => false

/-- Whether some slot is marked as holding no value. -/
def hasNulls (v : Vector) : Bool := v.validity.isSome

/-- The unsigned number in slot `i` of slots of `width` bytes. -/
def slotNat (data : ByteArray) (width i : Nat) : Nat :=
  (Bytes.word? data (i * width) width).getD 0

/-- The signed number in slot `i` of slots of `width` bytes. -/
def slotInt (data : ByteArray) (width i : Nat) : Int :=
  Bytes.signed (8 * width) (slotNat data width i)

/-- The bytes between the offsets of slot `i`. -/
def run (offsets data : ByteArray) (width i : Nat) : ByteArray :=
  data.extract (slotNat offsets width i) (slotNat offsets width (i + 1))

/-- The greatest length of a view that is kept inside its slot. -/
def inlineLength : Nat := 12

def view (slots : ByteArray) (buffers : List ByteArray) (i : Nat) : ByteArray :=
  let at0 := i * 16
  let n := (Bytes.u32? slots at0).getD 0
  if n ≤ inlineLength then slots.extract (at0 + 4) (at0 + 4 + n)
  else
    let buffer := (buffers[(Bytes.u32? slots (at0 + 8)).getD 0]?).getD ByteArray.empty
    let start := (Bytes.u32? slots (at0 + 12)).getD 0
    buffer.extract start (start + n)

/-- The run that a position belongs to: the first whose end lies behind it, or `count` if there is
none. -/
def runAt (ends : ByteArray) (width count : Nat) (i : Int) : Nat :=
  ((List.range count).find? fun r => i < slotInt ends width r).getD count

/-- The number of the variant of a slot of a union. -/
def variantNumber (numbers : ByteArray) (i : Nat) : Int := slotInt numbers 1 i

/-- The slot of a variant that a slot of a union refers to. -/
def variantSlot (offsets : Option ByteArray) (i : Nat) : Nat :=
  match offsets with
  | some o => slotNat o 4 i
  | none => i

end Vector

end DataClient.Arrow
