import DataClient.Arrow.Quantity
import DataClient.Arrow.Vector
import DataClient.Bytes.Base64
import DataClient.Number.Float
import DataClient.Text.Utf8

/-!
# How slots are shown

The text of a slot of a vector, for the types that have no cell of their own. A slot without a value
is shown as an empty text, whatever lies under it. Lists stand in square brackets, structs, maps and
variants in braces; a key stands for its value, and a position for that of its run. A slot that a
vector does not have is a crash, unless the vector has no storage of its own to be read.
-/

set_option autoImplicit false

namespace DataClient.Arrow

/-- The slot of a vector with storage for each slot: empty if it holds no value. -/
def Shape.present (s : Shape) (i : Nat) (value : Fragment) : Fragment :=
  if s.length ≤ i then .crash .slotOutOfRange
  else if s.isNull i then .of ""
  else value

/-- The slot of a vector whose only storage is its bitmap, if it has one. -/
def Shape.spread (s : Shape) (i : Nat) (value : Fragment) : Fragment :=
  if s.validity.isSome then s.present i value else value

/-- A value of fixed width. -/
def fixedText (type : DataType) (width : Nat) (data : ByteArray) (i : Nat) : Fragment :=
  let n := Vector.slotNat data width i
  let v := Vector.slotInt data width i
  match type with
  | .int signed _ => .of (if signed then toString v else toString n)
  | .float16 => .of (Number.Style.plain.write ((Number.Parts.ofHalf n).widen Number.singleBits))
  | .float32 => .of (Number.Style.nestedSingle.write (.ofSingle n))
  | .float64 => .of (Number.Style.nestedDouble.write (.ofBits 52 11 n))
  | .timestamp unit zone => dated "datetime" type v (timestampText? unit zone v)
  | .date32 => dated "temporal" type v ((Time.Date.ofDays? v).map Time.Date.write)
  | .date64 => dated "temporal" type v (Time.Instant.ofUnits 1000 v).writeNaive?
  | .time32 unit => dated "temporal" type v (clockText? unit.perSecond v)
  | .time64 unit => dated "temporal" type v (clockText? unit.perSecond v)
  | .duration unit => durationText unit v
  | .interval .yearMonth => .of (yearMonthText v)
  | .interval .dayTime =>
    .of (dayTimeText (Vector.slotInt data 4 (2 * i)) (Vector.slotInt data 4 (2 * i + 1)))
  | .interval .monthDayNano =>
    .of (monthDayNanoText (Vector.slotInt data 4 (4 * i)) (Vector.slotInt data 4 (4 * i + 1))
      (Vector.slotInt data 8 (2 * i + 1)))
  | .decimal128 precision scale => decimalText precision scale v
  | .decimal256 precision scale => decimalText precision scale v
  | _ => .of (Bytes.toHex (data.extract (i * width) (i * width + width)))

/-- A run of bytes: a text as it is, other bytes in hexadecimal. -/
def bytesText (type : DataType) (value : ByteArray) : Fragment :=
  match type with
  | .binary => .of (Bytes.toHex value)
  | .largeBinary => .of (Bytes.toHex value)
  | .binaryView => .of (Bytes.toHex value)
  | _ => .of (Text.ofBytesLossy value)

/-- Shown items in square brackets. -/
def bracketed (items : List Fragment) : Fragment := .of "[" ++ .join ", " items ++ .of "]"

/-- Shown entries in braces. -/
def braced (entries : List Fragment) : Fragment := .of "\x7b" ++ .join ", " entries ++ .of "\x7d"

/-- The slots between two offsets. -/
def between (offsets : ByteArray) (width i : Nat) : List Nat :=
  let start := Vector.slotNat offsets width i
  List.range' start (Vector.slotNat offsets width (i + 1) - start)

namespace Vector

mutual

/-- The text of a slot. -/
def text (i : Nat) : Vector → Fragment
  | .null _ => .of ""
  | .boolean s bits => s.present i (.of (if Bytes.bit bits i then "true" else "false"))
  | .fixed type s width data => s.present i (fixedText type width data i)
  | .runsOfBytes type s width offsets data =>
    s.present i (bytesText type (run offsets data width i))
  | .views type s slots buffers => s.present i (bytesText type (view slots buffers i))
  | .list _ s width offsets items =>
    s.present i (bracketed ((between offsets width i).map fun j => items.text j))
  | .fixedList _ s size items =>
    s.spread i (bracketed ((List.range' (i * size) size).map fun j => items.text j))
  | .struct _ s fields => s.spread i (braced (showFields i fields))
  | .map _ s offsets keys values =>
    s.present i (braced ((between offsets 4 i).map fun j =>
      keys.text j ++ .of ": " ++ values.text j))
  | .union _ length numbers offsets variants =>
    if length ≤ i then .crash .slotOutOfRange
    else showVariant (variantNumber numbers i) (variantSlot offsets i) variants
  | .runs _ _ width ends count values =>
    -- The position is compared in the width of the ends.
    values.text (runAt ends width count (Bytes.signed (8 * width) (i % Nat.pow 2 (8 * width))))
  | .dictionary _ s _ width keys values => s.present i (values.text (slotNat keys width i))

/-- The fields of a slot of a struct. -/
def showFields (i : Nat) : List (String × Vector) → List Fragment
  | [] => []
  | (name, v) :: rest => (.of (name ++ ": ") ++ v.text i) :: showFields i rest

/-- A slot of the variant with a number. -/
def showVariant (number : Int) (i : Nat) : List (Int × String × Vector) → Fragment
  | [] => .crash .slotOutOfRange
  | (n, name, v) :: rest =>
    if n = number then .of ("\x7b" ++ name ++ "=") ++ v.text i ++ .of "\x7d"
    else showVariant number i rest

end

end Vector

end DataClient.Arrow
