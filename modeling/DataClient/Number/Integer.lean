import DataClient.Text.Chars

/-!
# Integers written in decimal

A sign that may be left out, then digits, read from the left: the first character at which the
number stops being one of the type decides the fault.
-/

set_option autoImplicit false

namespace DataClient.Number

/-- Why a text is no integer of a type. -/
inductive IntegerFault
  | empty
  | invalidDigit
  | tooLarge
  | tooSmall
  deriving DecidableEq, Repr

/-- The wording of a fault. -/
def IntegerFault.message : IntegerFault → String
  | .empty => "cannot parse integer from empty string"
  | .invalidDigit => "invalid digit found in string"
  | .tooLarge => "number too large to fit in target type"
  | .tooSmall => "number too small to fit in target type"

/-- The number of some digits behind those of `acc`, if it stays within `limit`. -/
def magnitude (limit : Nat) (beyond : IntegerFault) (acc : Nat) : List Char → Except IntegerFault Nat
  | [] => .ok acc
  | c :: cs =>
    if !Text.isDigit c then .error .invalidDigit
    else
      let next := acc * 10 + Text.digitValue c
      if limit < next then .error beyond else magnitude limit beyond next cs

/-- The greatest unsigned number of 64 bits. -/
def unsignedMax : Nat := 0xFFFFFFFFFFFFFFFF

/-- The greatest signed number of 64 bits. -/
def signedMax : Nat := 0x7FFFFFFFFFFFFFFF

/-- Reads an unsigned integer of 64 bits. -/
def unsigned64 (s : String) : Except IntegerFault Nat :=
  match s.toList with
  | [] => .error .empty
  | ['+'] => .error .invalidDigit
  | '+' :: cs => magnitude unsignedMax .tooLarge 0 cs
  | cs => magnitude unsignedMax .tooLarge 0 cs

/-- Reads a signed integer of 64 bits. -/
def signed64 (s : String) : Except IntegerFault Int64 :=
  match s.toList with
  | [] => .error .empty
  | ['+'] => .error .invalidDigit
  | ['-'] => .error .invalidDigit
  | '+' :: cs => (magnitude signedMax .tooLarge 0 cs).map Int64.ofNat
  | '-' :: cs => (magnitude (signedMax + 1) .tooSmall 0 cs).map fun n => Int64.ofInt (-n)
  | cs => (magnitude signedMax .tooLarge 0 cs).map Int64.ofNat

end DataClient.Number
