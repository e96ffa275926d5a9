import DataClient.Json.Reader

/-!
# Reading documents of a known shape

Readers for strings, integers, optional values, lists, dictionaries, named variants and records.
A record is written as an object, or, positionally, as a list of its fields. Members of an object
that a record does not know are skipped without being read as values.
-/

set_option autoImplicit false

namespace DataClient.Json.Reader

/-- What a number counts as in a message. -/
def foundNumber : Number → Found
  | .natural n => .integer n.toNat
  | .negative n => .integer n.toInt
  | .float x => .float (Number.Style.json.write (Number.Parts.ofDouble x))

/-- Refuses the value that comes next, naming what it is. Scalars are read to be named; a list or
an object is named at its bracket. -/
def unexpected {α : Type} (expected : String) : Reader α := located do
  match ← peek with
  | some 'n' => skip; ident ['u', 'l', 'l']; failShape (.invalidType .null expected)
  | some 't' => skip; ident ['r', 'u', 'e']; failShape (.invalidType (.bool true) expected)
  | some 'f' => skip; ident ['a', 'l', 's', 'e']; failShape (.invalidType (.bool false) expected)
  | some '-' => skip; failShape (.invalidType (foundNumber (← numberBody true)) expected)
  | some '"' => skip; failShape (.invalidType (.string (← stringBody)) expected)
  | some '[' => failShape (.invalidType .sequence expected)
  | some '{' => failShape (.invalidType .map expected)
  | some x =>
    if Text.isDigit x then failShape (.invalidType (foundNumber (← numberBody false)) expected)
    else failNext .expectedValue
  | none => failNext .expectedValue

/-- A string that stands for what `expected` says. -/
def stringAs (expected : String) : Reader String := located do
  match ← skipSpacesTo .endInValue with
  | '"' => skip; stringBody
  | _ => unexpected expected

def string : Reader String := stringAs "a string"

/-- A number, checked by `accept`. -/
def number {α : Type} (expected : String) (accept : Number → Except Cause α) : Reader α := located do
  let checked (n : Number) : Reader α :=
    match accept n with
    | .ok a => return a
    | .error cause => failShape cause
  match ← skipSpacesTo .endInValue with
  | '-' => skip; checked (← numberBody true)
  | x => if Text.isDigit x then checked (← numberBody false) else unexpected expected

/-- A signed integer of 64 bits. -/
def int64 : Reader Int64 := number "i64" fun
  | .natural n =>
    if n.toNat < 0x8000000000000000 then .ok (Int64.ofNat n.toNat)
    else .error (.invalidValue (.integer n.toNat) "i64")
  | .negative n => .ok n
  | .float x => .error (.invalidType (foundNumber (.float x)) "i64")

def count : Reader Nat := number "usize" fun
  | .natural n => .ok n.toNat
  | .negative n => .error (.invalidValue (.integer n.toInt) "usize")
  | .float x => .error (.invalidType (foundNumber (.float x)) "usize")

/-- A value or `null`. -/
def optional {α : Type} (r : Reader α) : Reader (Option α) := do
  match ← skipSpaces with
  | some 'n' => skip; ident ['u', 'l', 'l']; return none
  | _ => return some (← r)

def list {α : Type} (item : Reader α) : Reader (List α) := located do
  match ← skipSpacesTo .endInValue with
  | '[' => bracketed (do itemsFrom (fun _ => item) (← enough) 0) closeList
  | _ => unexpected "a sequence"

/-- An object with arbitrary keys and values of one kind, in the order of the keys. -/
def dictionary {α : Type} (item : Reader α) : Reader (List (String × α)) := located do
  match ← skipSpacesTo .endInValue with
  | '{' =>
    bracketed
      (do membersFrom (fun k ms => do colon; return insertMember k (← item) ms) (← enough) true [])
      closeObject
  | _ => unexpected "a map"

/-- The value `null`, as the contents of a variant. -/
def unit : Reader Unit := located do
  match ← skipSpacesTo .endInValue with
  | 'n' => skip; ident ['u', 'l', 'l']
  | _ => unexpected "unit"

def variantName {α : Type} (variants : List (String × α)) : Reader α := located do
  let name ← stringAs "variant identifier"
  match lookup name variants with
  | some a => return a
  | none => failShape (.unknownVariant name (variants.map (·.1)))

/-- The name of a variant and the value `null`, as in an object. -/
def variantMember {α : Type} (variants : List (String × α)) : Reader α := do
  let a ← variantName variants
  colon
  unit
  return a

/-- The end of an object that stands for a variant. -/
def closeVariant : Reader Unit := do
  match ← skipSpaces with
  | some '}' => skip
  | some _ => failHere .expectedValue
  | none => failHere .endInObject

/-- An object that stands for a variant. Unlike others it is not closed after a refusal. -/
def variantObject {α : Type} (variants : List (String × α)) : Reader α := fun c =>
  if c.depth ≤ 1 then (failNext .tooDeep : Reader α) c
  else match (do skip; variantMember variants : Reader α) { c with depth := c.depth - 1 } with
    | .error e c' => .error e c'
    | .ok a c' => (do closeVariant; return a : Reader α) { c' with depth := c.depth }

/-- One of a set of named variants: its name, or an object that gives its name the value `null`. -/
def variant {α : Type} (variants : List (String × α)) : Reader α := do
  match ← skipSpacesTo .endInValue with
  | '"' => variantName variants
  | '{' => variantObject variants
  | _ => failNext .expectedValue

/-! ## Skipping -/

/-- Moves behind the digits that follow. -/
def skipDigits : Reader Nat := do return (← digits).length

/-- Moves behind an exponent, from its letter on. -/
def skipExponent : Reader Unit := do
  skip
  match ← peek with
  | some '+' => skip
  | some '-' => skip
  | _ => pure ()
  match ← next with
  | none => failHere .invalidNumber
  | some x =>
    if Text.isDigit x then discard skipDigits
    else fun c => .error ⟨.invalidNumber, some (c.offset + 1 - x.utf8Size)⟩ c

/-- Moves behind the exponent if one follows. -/
def skipExponentIf : Reader Unit := do
  match ← peek with
  | some 'e' => skipExponent
  | some 'E' => skipExponent
  | _ => return ()

/-- Moves behind a number behind its sign, whatever its size. -/
def skipNumber : Reader Unit := do
  match ← next with
  | none => failHere .invalidNumber
  | some x =>
    if x = '0' then
      match ← peek with
      | some y => if Text.isDigit y then failNext .invalidNumber
      | none => pure ()
    else if Text.isDigit x then discard skipDigits
    else fun c => .error ⟨.invalidNumber, some (c.offset + 1 - x.utf8Size)⟩ c
    match ← peek with
    | some '.' =>
      skip
      if (← skipDigits) = 0 then failNext .invalidNumber
      skipExponentIf
    | _ => skipExponentIf

/-- What a skipped value stands in: lists and objects, innermost first. -/
inductive Frame
  | list
  | object
  deriving DecidableEq

/-- The bracket that closes a frame. -/
def Frame.closer : Frame → Char
  | .list => ']'
  | .object => '}'

/-- Moves behind the brackets that close frames: the frames still open, or `none` if all are closed,
and whether a comma has been read. -/
def closeFrames (mayComma : Bool) (frame : Frame) (outer : List Frame) :
    Reader (Option (Frame × List Frame)) := do
  match ← skipSpaces with
  | none => failNext (if frame = .list then .endInList else .endInObject)
  | some x =>
    if x = frame.closer then
      skip
      match outer with
      | [] => return none
      | f :: fs => closeFrames true f fs
    else if !mayComma then return some (frame, outer)
    else if x = ',' then
      skip
      return some (frame, outer)
    else failNext (if frame = .list then .expectedListCommaOrEnd else .expectedObjectCommaOrEnd)

/-- Moves behind the key and the colon of a member. -/
def skipKey : Reader Unit := do
  match ← skipSpacesTo .endInObject with
  | '"' => skip
  | _ => failNext .keyMustBeString
  skipString
  match ← skipSpacesTo .endInObject with
  | ':' => skip
  | _ => failNext .expectedColon

/-- Moves behind a scalar, or into a list or an object. -/
def skipStart : Reader (Option Frame) := do
  match ← skipSpacesTo .endInValue with
  | 'n' => skip; ident ['u', 'l', 'l']; return none
  | 't' => skip; ident ['r', 'u', 'e']; return none
  | 'f' => skip; ident ['a', 'l', 's', 'e']; return none
  | '-' => skip; skipNumber; return none
  | '"' => skip; skipString; return none
  | '[' => skip; return some .list
  | '{' => skip; return some .object
  | x => if Text.isDigit x then skipNumber; return none else failNext .expectedValue

/-- Moves out of the frames that end behind a scalar or an opening bracket. -/
def leaveFrames : Option Frame → List Frame → Reader (Option (Frame × List Frame))
  | some f, fs => closeFrames false f fs
  | none, f :: fs => closeFrames true f fs
  | none, [] => return none

/-- Moves to a value in a frame. -/
def Frame.toValue : Frame → Reader Unit
  | .list => return ()
  | .object => skipKey

/-- Moves behind a value inside the given frames, and then out of them. -/
def skipFrom : (fuel : Nat) → List Frame → Reader Unit
  | 0, _ => failHere .endInValue
  | fuel + 1, frames => do
    match ← leaveFrames (← skipStart) frames with
    | none => return ()
    | some (frame, outer) =>
      frame.toValue
      skipFrom fuel (frame :: outer)

/-- Moves behind a value of any shape and any depth. -/
def skipValue : Reader Unit := do skipFrom (← enough) []

/-! ## Records -/

/-- A field of a record that is being read into a state of type `σ`. -/
structure FieldReader (σ : Type) where
  name : String
  /-- Whether the state has a value for the field already. -/
  isSet : σ → Bool
  /-- Reads the value into the state. -/
  read : σ → Reader σ
  /-- In a positional record the field may be left out at the end. -/
  mayEnd : Bool

/-- The fields of a positional record, in order; `i` is the position of the first of them. -/
def fieldsInOrder {σ : Type} (expected : String) : List (FieldReader σ) → Nat → σ → Reader σ
  | [], _, s => return s
  | f :: fs, i, s => do
    if ← moreItems (i = 0) then fieldsInOrder expected fs (i + 1) (← f.read s)
    else
      let rec rest : List (FieldReader σ) → Nat → Reader σ
        | [], _ => return s
        | g :: gs, j => if g.mayEnd then rest gs (j + 1) else failShape (.invalidLength j expected)
      rest (f :: fs) i

/-- A member of a record. -/
def fieldByName {σ : Type} (fields : List (FieldReader σ)) (k : String) (s : σ) : Reader σ :=
  match fields.find? (·.name == k) with
  | some f =>
    if f.isSet s then failShape (.duplicateField k)
    else do
      colon
      f.read s
  | none => do
    colon
    skipValue
    return s

/-- A record called `name`: its fields are read into a state, from which `finish` builds the record
or names the first field that is missing. -/
def record {σ α : Type} (name : String) (fields : List (FieldReader σ)) (empty : σ)
    (finish : σ → Except String α) : Reader α := located do
  let done (s : σ) : Reader α :=
    match finish s with
    | .ok a => return a
    | .error missing => failShape (.missingField missing)
  match ← skipSpacesTo .endInValue with
  | '[' =>
    let expected := "struct " ++ name ++ " with " ++ toString fields.length ++ " elements"
    bracketed (do done (← fieldsInOrder expected fields 0 empty)) closeList
  | '{' => bracketed (do done (← membersFrom (fieldByName fields) (← enough) true empty)) closeObject
  | _ => unexpected ("struct " ++ name)

end DataClient.Json.Reader
