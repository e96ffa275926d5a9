/-!
# JSON documents

A number keeps the form it was read in: a non-negative integer, a negative integer, or a double.
The members of an object stand in increasing order of their keys, each key once; `Members.insert`
is the one way in which they are built.
-/

set_option autoImplicit false

namespace DataClient

namespace Json

/-- A JSON number. -/
inductive Number
  /-- An integer from zero up. -/
  | natural (n : UInt64)
  /-- An integer below zero. -/
  | negative (n : Int64)
  /-- Anything written with a fraction or an exponent, or too large for the other two. -/
  | float (x : Float)
  deriving DecidableEq, Repr, Inhabited

end Json

/-- A JSON document. -/
inductive Json
  | null
  | bool (b : Bool)
  | number (n : Json.Number)
  | string (s : String)
  | array (items : List Json)
  | object (members : List (String × Json))
  deriving Repr, Inhabited

namespace Json

/-- Adds a member at its place in the order of the keys; an older member of that key gives way. -/
def insertMember {α : Type} (key : String) (value : α) : List (String × α) → List (String × α)
  | [] => [(key, value)]
  | (k, v) :: rest =>
    if key = k then (key, value) :: rest
    else if key < k then (key, value) :: (k, v) :: rest
    else (k, v) :: insertMember key value rest

/-- The members of a list, ordered, the last of each key. -/
def members {α : Type} (ms : List (String × α)) : List (String × α) :=
  ms.foldl (fun acc m => insertMember m.1 m.2 acc) []

/-- An object with the given members. -/
def ofMembers (ms : List (String × Json)) : Json := .object (members ms)

mutual

/-- A document with the members of every object in order. -/
def sorted : Json → Json
  | .array items => .array (sortedItems items)
  | .object ms => ofMembers (sortedMembers ms)
  | j => j

/-- The items of an array, each with the members of every object in order. -/
def sortedItems : List Json → List Json
  | [] => []
  | j :: rest => j.sorted :: sortedItems rest

/-- The members of an object, each value with the members of every object in order. -/
def sortedMembers : List (String × Json) → List (String × Json)
  | [] => []
  | (k, j) :: rest => (k, j.sorted) :: sortedMembers rest

end

/-- The value of a key. -/
def lookup {α : Type} (key : String) (ms : List (String × α)) : Option α :=
  (ms.find? (·.1 == key)).map (·.2)

/-- A number for a signed integer. -/
def ofInt64 (n : Int64) : Json :=
  .number (if n < 0 then .negative n else .natural n.toInt.toNat.toUInt64)

def ofCount (n : Nat) : Json := .number (.natural n.toUInt64)

end Json

end DataClient
