import DataClient.Text.Quoted

/-!
# Data types of columns

The types that a schema can declare, and the name each is shown by. Two types are the same
(`DataType.same`) if they agree in everything but the numbering of dictionaries.
-/

set_option autoImplicit false

namespace DataClient.Arrow

/-- Sizes of integers. -/
inductive IntWidth
  | w8
  | w16
  | w32
  | w64
  deriving DecidableEq, Repr

/-- The bytes of an integer. -/
def IntWidth.bytes : IntWidth → Nat
  | .w8 => 1
  | .w16 => 2
  | .w32 => 4
  | .w64 => 8

inductive TimeUnit
  | second
  | millisecond
  | microsecond
  | nanosecond
  deriving DecidableEq, Repr

/-- How many units make a second. -/
def TimeUnit.perSecond : TimeUnit → Nat
  | .second => 1
  | .millisecond => 1000
  | .microsecond => 1000000
  | .nanosecond => 1000000000

def TimeUnit.name : TimeUnit → String
  | .second => "Second"
  | .millisecond => "Millisecond"
  | .microsecond => "Microsecond"
  | .nanosecond => "Nanosecond"

/-- How a calendar interval is counted. -/
inductive IntervalUnit
  | yearMonth
  | dayTime
  | monthDayNano
  deriving DecidableEq, Repr

def IntervalUnit.name : IntervalUnit → String
  | .yearMonth => "YearMonth"
  | .dayTime => "DayTime"
  | .monthDayNano => "MonthDayNano"

/-- What a schema says about a field besides its type. -/
structure FieldInfo where
  name : String
  nullable : Bool
  dictionaryId : Int
  dictionaryOrdered : Bool
  /-- Free annotations, in the order of their keys. -/
  metadata : List (String × String)
  deriving DecidableEq, Repr

/-- Whether two fields agree, apart from the numbering of dictionaries. -/
def FieldInfo.same (a b : FieldInfo) : Bool :=
  a.name == b.name && a.nullable == b.nullable && a.metadata == b.metadata

/-- The type of a column. -/
inductive DataType
  | null
  | boolean
  | int (signed : Bool) (width : IntWidth)
  | float16
  | float32
  | float64
  | timestamp (unit : TimeUnit) (zone : Option String)
  | date32
  | date64
  | time32 (unit : TimeUnit)
  | time64 (unit : TimeUnit)
  | duration (unit : TimeUnit)
  | interval (unit : IntervalUnit)
  | binary
  | largeBinary
  | binaryView
  | fixedSizeBinary (size : Int)
  | utf8
  | largeUtf8
  | utf8View
  | decimal128 (precision : Nat) (scale : Int)
  | decimal256 (precision : Nat) (scale : Int)
  | list (item : FieldInfo) (type : DataType)
  | largeList (item : FieldInfo) (type : DataType)
  | fixedSizeList (item : FieldInfo) (type : DataType) (size : Int)
  | struct (fields : List (FieldInfo × DataType))
  | map (entries : FieldInfo) (type : DataType) (sorted : Bool)
  | union (variants : List (Int × FieldInfo × DataType)) (dense : Bool)
  | runEndEncoded (ends : FieldInfo) (endsType : DataType) (values : FieldInfo) (valuesType : DataType)
  | dictionary (keySigned : Bool) (keyWidth : IntWidth) (values : DataType)
  deriving Repr, Inhabited

/-- A field of a schema. -/
structure Field where
  info : FieldInfo
  type : DataType

/-- The fields of the columns of a payload. -/
abbrev Schema := List Field

/-! ## Names -/

/-- The name of an integer type. -/
def intName (signed : Bool) (width : IntWidth) : String :=
  (if signed then "Int" else "UInt") ++ toString (8 * width.bytes)

/-- A flag in a name. -/
def showFlag (b : Bool) : String := if b then "true" else "false"

/-- Annotations in a name. -/
def showMetadata (ms : List (String × String)) : String :=
  "\x7b" ++ Text.joinWith ", " (ms.map fun (k, v) => Text.quoted k ++ ": " ++ Text.quoted v) ++ "\x7d"

/-- A field in a name, given the name of its type. -/
def FieldInfo.show (f : FieldInfo) (type : String) : String :=
  "Field \x7b name: " ++ Text.quoted f.name ++ ", data_type: " ++ type ++ ", nullable: "
    ++ showFlag f.nullable ++ ", dict_id: " ++ toString f.dictionaryId ++ ", dict_is_ordered: "
    ++ showFlag f.dictionaryOrdered ++ ", metadata: " ++ showMetadata f.metadata ++ " \x7d"

mutual

def DataType.name : DataType → String
  | .null => "Null"
  | .boolean => "Boolean"
  | .int signed width => intName signed width
  | .float16 => "Float16"
  | .float32 => "Float32"
  | .float64 => "Float64"
  | .timestamp unit none => "Timestamp(" ++ unit.name ++ ", None)"
  | .timestamp unit (some zone) => "Timestamp(" ++ unit.name ++ ", Some(" ++ Text.quoted zone ++ "))"
  | .date32 => "Date32"
  | .date64 => "Date64"
  | .time32 unit => "Time32(" ++ unit.name ++ ")"
  | .time64 unit => "Time64(" ++ unit.name ++ ")"
  | .duration unit => "Duration(" ++ unit.name ++ ")"
  | .interval unit => "Interval(" ++ unit.name ++ ")"
  | .binary => "Binary"
  | .largeBinary => "LargeBinary"
  | .binaryView => "BinaryView"
  | .fixedSizeBinary size => "FixedSizeBinary(" ++ toString size ++ ")"
  | .utf8 => "Utf8"
  | .largeUtf8 => "LargeUtf8"
  | .utf8View => "Utf8View"
  | .decimal128 precision scale => "Decimal128(" ++ toString precision ++ ", " ++ toString scale ++ ")"
  | .decimal256 precision scale => "Decimal256(" ++ toString precision ++ ", " ++ toString scale ++ ")"
  | .list item type => "List(" ++ item.show type.name ++ ")"
  | .largeList item type => "LargeList(" ++ item.show type.name ++ ")"
  | .fixedSizeList item type size =>
    "FixedSizeList(" ++ item.show type.name ++ ", " ++ toString size ++ ")"
  | .struct fields => "Struct([" ++ Text.joinWith ", " (fieldNames fields) ++ "])"
  | .map entries type sorted => "Map(" ++ entries.show type.name ++ ", " ++ showFlag sorted ++ ")"
  | .union variants dense =>
    "Union([" ++ Text.joinWith ", " (variantNames variants) ++ "], "
      ++ (if dense then "Dense" else "Sparse") ++ ")"
  | .runEndEncoded ends endsType values valuesType =>
    "RunEndEncoded(" ++ ends.show endsType.name ++ ", " ++ values.show valuesType.name ++ ")"
  | .dictionary keySigned keyWidth values =>
    "Dictionary(" ++ intName keySigned keyWidth ++ ", " ++ values.name ++ ")"

/-- The names of the fields of a struct. -/
def fieldNames : List (FieldInfo × DataType) → List String
  | [] => []
  | (f, t) :: rest => f.show t.name :: fieldNames rest

/-- The names of the variants of a union, with their numbers. -/
def variantNames : List (Int × FieldInfo × DataType) → List String
  | [] => []
  | (i, f, t) :: rest => ("(" ++ toString i ++ ", " ++ f.show t.name ++ ")") :: variantNames rest

end

/-! ## Comparison -/

mutual

/-- Whether two types are the same. -/
def DataType.same : DataType → DataType → Bool
  | .null, .null => true
  | .boolean, .boolean => true
  | .int s w, .int s' w' => s == s' && w == w'
  | .float16, .float16 => true
  | .float32, .float32 => true
  | .float64, .float64 => true
  | .timestamp u z, .timestamp u' z' => u == u' && z == z'
  | .date32, .date32 => true
  | .date64, .date64 => true
  | .time32 u, .time32 u' => u == u'
  | .time64 u, .time64 u' => u == u'
  | .duration u, .duration u' => u == u'
  | .interval u, .interval u' => u == u'
  | .binary, .binary => true
  | .largeBinary, .largeBinary => true
  | .binaryView, .binaryView => true
  | .fixedSizeBinary n, .fixedSizeBinary n' => n == n'
  | .utf8, .utf8 => true
  | .largeUtf8, .largeUtf8 => true
  | .utf8View, .utf8View => true
  | .decimal128 p s, .decimal128 p' s' => p == p' && s == s'
  | .decimal256 p s, .decimal256 p' s' => p == p' && s == s'
  | .list f t, .list f' t' => f.same f' && t.same t'
  | .largeList f t, .largeList f' t' => f.same f' && t.same t'
  | .fixedSizeList f t n, .fixedSizeList f' t' n' => f.same f' && t.same t' && n == n'
  | .struct fs, .struct fs' => sameFields fs fs'
  | .map f t b, .map f' t' b' => f.same f' && t.same t' && b == b'
  | .union vs d, .union vs' d' => sameVariants vs vs' && d == d'
  | .runEndEncoded e te v tv, .runEndEncoded e' te' v' tv' =>
    e.same e' && te.same te' && v.same v' && tv.same tv'
  | .dictionary s w t, .dictionary s' w' t' => s == s' && w == w' && t.same t'
  | _, _ => false

/-- Whether two structs have the same fields. -/
def sameFields : List (FieldInfo × DataType) → List (FieldInfo × DataType) → Bool
  | [], [] => true
  | (f, t) :: r, (f', t') :: r' => f.same f' && t.same t' && sameFields r r'
  | _, _ => false

/-- Whether two unions have the same variants. -/
def sameVariants : List (Int × FieldInfo × DataType) → List (Int × FieldInfo × DataType) → Bool
  | [], [] => true
  | (i, f, t) :: r, (i', f', t') :: r' => i == i' && f.same f' && t.same t' && sameVariants r r'
  | _, _ => false

end

/-! ## Zones -/

mutual

/-- The zones of the timestamps inside a type, outer before inner. -/
def DataType.zones : DataType → List String
  | .timestamp _ (some zone) => [zone]
  | .list _ t => t.zones
  | .largeList _ t => t.zones
  | .fixedSizeList _ t _ => t.zones
  | .map _ t _ => t.zones
  | .struct fs => fieldZones fs
  | .union vs _ => variantZones vs
  | .runEndEncoded _ _ _ t => t.zones
  | .dictionary _ _ t => t.zones
  | _ => []

/-- The zones inside the fields of a struct. -/
def fieldZones : List (FieldInfo × DataType) → List String
  | [] => []
  | (_, t) :: rest => t.zones ++ fieldZones rest

/-- The zones inside the variants of a union. -/
def variantZones : List (Int × FieldInfo × DataType) → List String
  | [] => []
  | (_, _, t) :: rest => t.zones ++ variantZones rest

end

/-! ## Dictionaries -/

mutual

/-- All fields inside a type, outer before inner. The keys of a dictionary are no field. -/
def DataType.inner : DataType → List Field
  | .list f t => ⟨f, t⟩ :: t.inner
  | .largeList f t => ⟨f, t⟩ :: t.inner
  | .fixedSizeList f t _ => ⟨f, t⟩ :: t.inner
  | .map f t _ => ⟨f, t⟩ :: t.inner
  | .struct fs => innerFields fs
  | .union vs _ => innerVariants vs
  | .runEndEncoded _ _ f t => ⟨f, t⟩ :: t.inner
  | .dictionary _ _ t => t.inner
  | _ => []

/-- All fields of a struct and inside them. -/
def innerFields : List (FieldInfo × DataType) → List Field
  | [] => []
  | (f, t) :: rest => ⟨f, t⟩ :: t.inner ++ innerFields rest

/-- All fields of a union and inside them. -/
def innerVariants : List (Int × FieldInfo × DataType) → List Field
  | [] => []
  | (_, f, t) :: rest => ⟨f, t⟩ :: t.inner ++ innerVariants rest

end

/-- The type of the values of the dictionary with an identifier: that of the first field which uses
it. -/
def dictionaryValues? (schema : Schema) (id : Int) : Option DataType :=
  (schema.flatMap fun f => f :: f.type.inner).findSome? fun f =>
    match f.type with
    | .dictionary _ _ values => if f.info.dictionaryId = id then some values else none
    | _ => none

end DataClient.Arrow
