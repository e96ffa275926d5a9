import DataClient.Json.Basic
import DataClient.Json.Error
import DataClient.Number.Float

/-!
# Reading JSON

A `Reader α` reads an `α` off the front of a text. Readers for documents of a known shape
(`string`, `seq`, `record`, …) look at the text directly instead of reading a whole document
first, so that the first fault in the text is the one reported, whatever its kind.

A fault of shape is first raised without a place; the reader of the value it belongs to gives it the
place where reading stands by then (`located`). That is why a list or an object is always closed,
even when its contents were refused.
-/

set_option autoImplicit false

namespace DataClient.Json

/-- Where reading stands. -/
structure Cursor where
  /-- Bytes read so far. -/
  offset : Nat
  rest : List Char
  /-- How many more lists and objects may be opened. -/
  depth : Nat

/-- Lists and objects may be nested less deeply than this. -/
def depthLimit : Nat := 128

/-- A refusal, with its offset once that is known. -/
structure Failure where
  cause : Cause
  offset? : Option Nat

abbrev Reader := EStateM Failure Cursor

namespace Reader

/-- Raises a cause at the offset of what has been read. -/
def failHere {α : Type} (cause : Cause) : Reader α := fun c =>
  .error ⟨cause, some c.offset⟩ c

/-- Raises a cause at the byte that comes next, if there is one. -/
def failNext {α : Type} (cause : Cause) : Reader α := fun c =>
  .error ⟨cause, some (match c.rest with | [] => c.offset | _ :: _ => c.offset + 1)⟩ c

/-- Raises a cause whose place is settled later. -/
def failShape {α : Type} (cause : Cause) : Reader α := fun c => .error ⟨cause, none⟩ c

/-- Gives a refusal without a place the place where reading stands. -/
def located {α : Type} (r : Reader α) : Reader α := fun c =>
  match r c with
  | .error ⟨cause, none⟩ c' => .error ⟨cause, some c'.offset⟩ c'
  | other => other

/-- The next character, left where it is. -/
def peek : Reader (Option Char) := fun c => .ok c.rest.head? c

/-- Moves behind the next character. -/
def skip : Reader Unit := fun c =>
  match c.rest with
  | [] => .ok () c
  | x :: xs => .ok () { c with offset := c.offset + x.utf8Size, rest := xs }

/-- Takes the next character. -/
def next : Reader (Option Char) := do
  let x ← peek
  skip
  return x

/-- The characters that may stand between tokens. -/
def isSpace (c : Char) : Bool := c = ' ' || c = '\n' || c = '\t' || c = '\r'

/-- Moves behind spaces and shows what follows. -/
def skipSpaces : Reader (Option Char) := fun c =>
  let spaces := c.rest.takeWhile isSpace
  let rest := c.rest.dropWhile isSpace
  .ok rest.head? { c with offset := c.offset + spaces.length, rest := rest }

/-- Moves behind spaces to what follows, which must be something. -/
def skipSpacesTo (ifEnd : Cause) : Reader Char := do
  match ← skipSpaces with
  | some x => return x
  | none => failNext ifEnd

/-! ## Literals and strings -/

/-- The rest of `null`, `true` or `false`. -/
def ident : List Char → Reader Unit
  | [] => return ()
  | x :: xs => do
    match ← next with
    | none => failHere .endInValue
    | some y => if x = y then ident xs else fun c => .error ⟨.expectedIdent, some (c.offset + 1 - y.utf8Size)⟩ c

/-- Where reading a string stands. -/
inductive StringMode
  /-- Between escapes. -/
  | plain
  /-- Behind a backslash. -/
  | escape
  /-- Inside a `\u` escape: digits still to come, value of those read, leading surrogate before. -/
  | digits (left value : Nat) (high : Option Nat)
  /-- Behind a leading surrogate, where a second escape has to begin. -/
  | backslash (high : Nat)
  /-- Behind the backslash of that second escape. -/
  | letterU (high : Nat)

/-- What a one-letter escape stands for. -/
def shortEscape? (x : Char) : Option Char :=
  match x with
  | '"' => some '"'
  | '\\' => some '\\'
  | '/' => some '/'
  | 'b' => some '\x08'
  | 'f' => some '\x0c'
  | 'n' => some '\n'
  | 'r' => some '\r'
  | 't' => some '\t'
  | _ => none

/-- What follows a complete `\u` escape: the next mode and the character it gives, if any. With
`strict` unset, escapes are only skipped and surrogates may stand alone. -/
def finishEscape (strict : Bool) (value : Nat) (high : Option Nat) :
    Except Cause (StringMode × Option Char) :=
  if !strict then .ok (.plain, none)
  else match high with
    | none =>
      if 0xDC00 ≤ value ∧ value ≤ 0xDFFF then .error .loneSurrogate
      else if 0xD800 ≤ value ∧ value ≤ 0xDBFF then .ok (.backslash value, none)
      else .ok (.plain, some (Char.ofNat value))
    | some h =>
      if value < 0xDC00 ∨ 0xDFFF < value then .error .loneSurrogate
      else .ok (.plain, some (Char.ofNat (0x10000 + (h - 0xD800) * 0x400 + (value - 0xDC00))))

/-- Reads a string behind its opening quote; `read` holds what has been read, last first. A control
character is refused at its own place, in a string that is only skipped at the place before it. -/
def stringFrom (strict : Bool) (depth : Nat) :
    (mode : StringMode) → (read : List Char) → (offset : Nat) → (cs : List Char) →
    EStateM.Result Failure Cursor (List Char)
  | _, _, offset, [] => .error ⟨.endInString, some offset⟩ ⟨offset, [], depth⟩
  | .plain, read, offset, x :: xs =>
    if x = '"' then .ok read.reverse ⟨offset + 1, xs, depth⟩
    else if x = '\\' then stringFrom strict depth .escape read (offset + 1) xs
    else if x.toNat < 0x20 then
      let place := if strict then offset + 1 else offset
      .error ⟨.controlCharacter, some place⟩ ⟨place, xs, depth⟩
    else stringFrom strict depth .plain (x :: read) (offset + x.utf8Size) xs
  | .escape, read, offset, x :: xs =>
    if x = 'u' then stringFrom strict depth (.digits 4 0 none) read (offset + 1) xs
    else match shortEscape? x with
      | some y => stringFrom strict depth .plain (y :: read) (offset + 1) xs
      | none => .error ⟨.invalidEscape, some (offset + 1)⟩ ⟨offset + 1, xs, depth⟩
  | .digits left value high, read, offset, x :: xs =>
    match Text.hexValue? x with
    | none =>
      let bytes := Text.byteLength (x :: xs)
      if bytes < left then .error ⟨.endInString, some (offset + bytes)⟩ ⟨offset + bytes, [], depth⟩
      else .error ⟨.invalidEscape, some (offset + left)⟩ ⟨offset + left, xs, depth⟩
    | some d =>
      let value := value * 16 + d
      if left ≤ 1 then
        match finishEscape strict value high with
        | .error cause => .error ⟨cause, some (offset + 1)⟩ ⟨offset + 1, xs, depth⟩
        | .ok (mode, none) => stringFrom strict depth mode read (offset + 1) xs
        | .ok (mode, some y) => stringFrom strict depth mode (y :: read) (offset + 1) xs
      else stringFrom strict depth (.digits (left - 1) value high) read (offset + 1) xs
  | .backslash high, read, offset, x :: xs =>
    if x = '\\' then stringFrom strict depth (.letterU high) read (offset + 1) xs
    else .error ⟨.unexpectedEndOfEscape, some (offset + 1)⟩ ⟨offset + 1, xs, depth⟩
  | .letterU high, read, offset, x :: xs =>
    if x = 'u' then stringFrom strict depth (.digits 4 0 (some high)) read (offset + 1) xs
    else .error ⟨.unexpectedEndOfEscape, some (offset + 1)⟩ ⟨offset + 1, xs, depth⟩

/-- The contents of a string behind its opening quote. -/
def stringBody : Reader String := fun c =>
  match stringFrom true c.depth .plain [] c.offset c.rest with
  | .ok cs c' => .ok (String.ofList cs) c'
  | .error e c' => .error e c'

/-- Moves behind a string whose opening quote has been read. -/
def skipString : Reader Unit := fun c =>
  match stringFrom false c.depth .plain [] c.offset c.rest with
  | .ok _ c' => .ok () c'
  | .error e c' => .error e c'

/-! ## Numbers -/

/-- The digits that follow. -/
def digits : Reader (List Char) := fun c =>
  let ds := c.rest.takeWhile Text.isDigit
  .ok ds { c with offset := c.offset + ds.length, rest := c.rest.dropWhile Text.isDigit }

/-- Whether one more digit would carry a significand past 64 bits. -/
def overflows (significand digit : Nat) : Bool :=
  0x10000000000000000 ≤ significand * 10 + digit

/-- Takes digits into a significand until one would carry it past 64 bits: the significand and the
digits left over. -/
def accumulate (significand : Nat) : List Char → Nat × List Char
  | [] => (significand, [])
  | d :: ds =>
    if overflows significand (Text.digitValue d) then (significand, d :: ds)
    else accumulate (significand * 10 + Text.digitValue d) ds

/-- The double nearest to a power of ten that a double can hold. -/
def powerOfTen (n : Nat) : Float := Float.ofScientific 1 false n

/-- The double for `significand * 10 ^ exponent`, or `none` beyond the largest double: the
significand is rounded first and then scaled by one power of ten, or, far below one, by several. -/
def scale : (fuel : Nat) → Float → Int → Option Float
  | 0, x, _ => some x
  | fuel + 1, x, exponent =>
    if exponent.natAbs ≤ 308 then
      if 0 ≤ exponent then
        let y := x * powerOfTen exponent.natAbs
        if isInfinite y then none else some y
      else some (x / powerOfTen exponent.natAbs)
    else if x == 0.0 then some x
    else if 0 ≤ exponent then none
    else scale fuel (x / powerOfTen 308) (exponent + 308)
where
  /-- Whether a double is an infinity. -/
  isInfinite (x : Float) : Bool := x.toBits &&& 0x7fffffffffffffff == 0x7ff0000000000000

/-- A number in pieces, before its value is formed. -/
def float (negative : Bool) (significand : Nat) (exponent : Int) : Reader Float :=
  -- A double times 10 ^ -308 three times is zero.
  match scale 4 significand.toUInt64.toFloat exponent with
  | some x => return if negative then -x else x
  | none => failHere .numberOutOfRange

/-- Exponents are kept within 32 bits. -/
def clampExponent (e : Int) : Int := max (-0x80000000) (min 0x7FFFFFFF e)

/-- The value of the digits of an exponent, up to the first that leaves 32 bits. -/
def exponentValue (acc : Nat) : List Char → Option Nat
  | [] => some acc
  | d :: ds =>
    let n := acc * 10 + Text.digitValue d
    if 0x80000000 ≤ n then none else exponentValue n ds

/-- How many digits of an exponent are read up to and including the first that leaves 32 bits. -/
def exponentReach (acc : Nat) : List Char → Nat
  | [] => 0
  | d :: ds =>
    let n := acc * 10 + Text.digitValue d
    if 0x80000000 ≤ n then 1 else 1 + exponentReach n ds

/-- Reads the exponent from its letter on. -/
def exponentPart (negative : Bool) (significand : Nat) (starting : Int) : Reader Float := do
  skip
  let negativeExponent ← do
    match ← peek with
    | some '+' => skip; pure false
    | some '-' => skip; pure true
    | _ => pure false
  match ← peek with
  | none => failHere .endInValue
  | some x =>
    if !Text.isDigit x then
      skip
      fun c => .error ⟨.invalidNumber, some (c.offset + 1 - x.utf8Size)⟩ c
    else
      let start ← get
      let ds ← digits
      match exponentValue 0 ds with
      | some e =>
        let e : Int := if negativeExponent then starting - e else starting + e
        float negative significand (clampExponent e)
      | none =>
        if significand ≠ 0 ∧ ¬negativeExponent then
          fun c => .error ⟨.numberOutOfRange, some (start.offset + exponentReach 0 ds)⟩ c
        else return if negative then -0.0 else 0.0

/-- The exponent if one follows, else the number as read so far. -/
def exponentOrEnd (negative : Bool) (significand : Nat) (exponent : Int) : Reader Float := do
  match ← peek with
  | some 'e' => exponentPart negative significand exponent
  | some 'E' => exponentPart negative significand exponent
  | _ => float negative significand exponent

/-- Reads the fraction from its point on. Digits that no longer fit the significand are dropped. -/
def fractionPart (negative : Bool) (significand : Nat) (exponent : Int) : Reader Float := do
  skip
  let ds ← digits
  if ds.isEmpty then
    match ← peek with
    | some _ => failNext .invalidNumber
    | none => failNext .endInValue
  else
    let (significand, dropped) := accumulate significand ds
    exponentOrEnd negative significand (exponent - (ds.length - dropped.length : Nat))

/-- What follows the integer part of a number. -/
def numberTail (negative : Bool) (significand : Nat) : Reader Number := do
  match ← peek with
  | some '.' => return .float (← fractionPart negative significand 0)
  | some 'e' => return .float (← exponentPart negative significand 0)
  | some 'E' => return .float (← exponentPart negative significand 0)
  | _ =>
    if !negative then return .natural significand.toUInt64
    else if 0 < significand ∧ significand ≤ 0x8000000000000000 then
      return .negative (Int64.ofInt (-significand))
    else return .float (-significand.toUInt64.toFloat)

/-- What follows an integer part too long for 64 bits. -/
def longTail (negative : Bool) (significand : Nat) (dropped : Nat) : Reader Number := do
  match ← peek with
  | some '.' => return .float (← fractionPart negative significand dropped)
  | _ => return .float (← exponentOrEnd negative significand dropped)

/-- A number behind its sign. -/
def numberBody (negative : Bool) : Reader Number := do
  match ← next with
  | none => failHere .endInValue
  | some '0' =>
    match ← peek with
    | some x => if Text.isDigit x then failNext .invalidNumber else numberTail negative 0
    | none => numberTail negative 0
  | some x =>
    if Text.isDigit x then
      let ds ← digits
      let (significand, dropped) := accumulate (Text.digitValue x) ds
      if dropped.isEmpty then numberTail negative significand
      else longTail negative significand dropped.length
    else fun c => .error ⟨.invalidNumber, some (c.offset + 1 - x.utf8Size)⟩ c

/-! ## Lists and objects -/

/-- Opens a list or an object whose bracket comes next, reads its contents, and closes it in any
case; a refusal inside wins over one at the closing bracket. -/
def bracketed {α : Type} (contents : Reader α) (close : Reader Unit) : Reader α := fun c =>
  if c.depth ≤ 1 then (failNext .tooDeep : Reader α) c
  else match (do skip; contents : Reader α) { c with depth := c.depth - 1 } with
    | .ok a c' =>
      let c' := { c' with depth := c.depth }
      match close c' with
      | .ok _ c'' => .ok a c''
      | .error e c'' => .error e c''
    | .error e c' =>
      match close { c' with depth := c.depth } with
      | .ok _ c'' => .error e c''
      | .error _ c'' => .error e c''

def closeList : Reader Unit := do
  match ← skipSpaces with
  | some ']' => skip
  | some ',' =>
    skip
    match ← skipSpaces with
    | some ']' => failNext .trailingComma
    | _ => failNext .trailingCharacters
  | some _ => failNext .trailingCharacters
  | none => failNext .endInList

def closeObject : Reader Unit := do
  match ← skipSpaces with
  | some '}' => skip
  | some ',' => failNext .trailingComma
  | some _ => failNext .trailingCharacters
  | none => failNext .endInObject

/-- Whether a list goes on, behind the comma that says so. -/
def moreItems (first : Bool) : Reader Bool := do
  match ← skipSpacesTo .endInList with
  | ']' => return false
  | x =>
    if first then return true
    else if x = ',' then
      skip
      match ← skipSpacesTo .endInValue with
      | ']' => failNext .trailingComma
      | _ => return true
    else failNext .expectedListCommaOrEnd

/-- Whether an object goes on, behind the comma that says so and before the key. -/
def moreMembers (first : Bool) : Reader Bool := do
  match ← skipSpacesTo .endInObject with
  | '}' => return false
  | x =>
    if first then
      if x = '"' then return true else failNext .keyMustBeString
    else if x = ',' then
      skip
      match ← skipSpacesTo .endInValue with
      | '"' => return true
      | '}' => failNext .trailingComma
      | _ => failNext .keyMustBeString
    else failNext .expectedObjectCommaOrEnd

/-- A key whose quote comes next. -/
def key : Reader String := do
  skip
  stringBody

/-- The colon between a key and its value. -/
def colon : Reader Unit := do
  match ← skipSpacesTo .endInObject with
  | ':' => skip
  | _ => failNext .expectedColon

/-- Reads the items of a list one by one, handing each its position. -/
def itemsFrom {α : Type} (item : Nat → Reader α) : (fuel : Nat) → Nat → Reader (List α)
  | 0, _ => failHere .endInList
  | fuel + 1, i => do
    if ← moreItems (i = 0) then
      let x ← item i
      return x :: (← itemsFrom item fuel (i + 1))
    else return []

/-- Reads the members of an object one by one into a state. -/
def membersFrom {σ : Type} (member : String → σ → Reader σ) : (fuel : Nat) → (first : Bool) → σ → Reader σ
  | 0, _, _ => failHere .endInObject
  | fuel + 1, first, s => do
    if ← moreMembers first then
      let k ← key
      membersFrom member fuel false (← member k s)
    else return s

/-- Fuel for a loop that reads at least one character a turn. -/
def enough : Reader Nat := fun c => .ok (c.rest.length + 1) c

/-! ## Whole documents -/

/-- Reads any document. Each level of nesting and each item costs one unit of fuel. -/
def documentFrom : (fuel : Nat) → Reader Json
  | 0 => failHere .tooDeep
  | fuel + 1 => located do
    match ← skipSpacesTo .endInValue with
    | 'n' => skip; ident ['u', 'l', 'l']; return .null
    | 't' => skip; ident ['r', 'u', 'e']; return .bool true
    | 'f' => skip; ident ['a', 'l', 's', 'e']; return .bool false
    | '-' => skip; return .number (← numberBody true)
    | '"' => skip; return .string (← stringBody)
    | '[' => bracketed (do return .array (← itemsFrom (fun _ => documentFrom fuel) (← enough) 0)) closeList
    | '{' =>
      bracketed
        (do
          let ms ← membersFrom
            (fun k ms => do colon; return insertMember k (← documentFrom fuel) ms) (← enough) true []
          return .object ms)
        closeObject
    | x => if Text.isDigit x then return .number (← numberBody false) else failNext .expectedValue

/-- Reads any document; the nesting is bounded by `depthLimit`. -/
def document : Reader Json := documentFrom (depthLimit + 1)

end Reader

/-- Reads a whole text as one value, with nothing but spaces behind it. -/
def read {α : Type} (r : Reader α) (text : String) : Except Error α :=
  let cs := text.toList
  let whole : Reader α := do
    let a ← r
    match ← Reader.skipSpaces with
    | none => return a
    | some _ => Reader.failNext .trailingCharacters
  match whole ⟨0, cs, depthLimit⟩ with
  | .ok a _ => .ok a
  | .error e c =>
    let (line, column) := place 1 0 cs (e.offset?.getD c.offset)
    .error ⟨e.cause, line, column⟩

def parse (text : String) : Except Error Json := read Reader.document text

end DataClient.Json
