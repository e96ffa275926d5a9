import DataClient.Number.Shortest

/-!
# Floating point numbers and their texts

A double (or a single, or a half) is taken apart into sign and exact magnitude, and written in
one of the styles below. A style is one record: when it writes positionally, whether a whole
number keeps a `.0`, and how its exponent is signed.
-/

set_option autoImplicit false

namespace DataClient.Number

/-- A binary floating point number taken apart. -/
inductive Parts
  | nan
  | infinite (negative : Bool)
  | zero (negative : Bool)
  | finite (negative : Bool) (spacing : Spacing)

/-- Takes a bit pattern apart: `mantissaBits` stored bits of the significand below
`exponentBits` of exponent below one sign bit. -/
def Parts.ofBits (mantissaBits exponentBits bits : Nat) : Parts :=
  let implied := Nat.pow 2 mantissaBits
  let fraction := bits % implied
  let biased := bits / implied % Nat.pow 2 exponentBits
  let negative := bits.testBit (mantissaBits + exponentBits)
  let bias : Int := Nat.pow 2 (exponentBits - 1) - 1
  if biased = Nat.pow 2 exponentBits - 1 then
    if fraction = 0 then .infinite negative else .nan
  else if biased = 0 then
    if fraction = 0 then .zero negative
    else .finite negative ⟨fraction, 1 - bias - mantissaBits, false⟩
  else
    .finite negative ⟨implied + fraction, (biased : Int) - bias - mantissaBits,
      fraction = 0 && 1 < biased⟩

def Parts.ofDouble (x : Float) : Parts := .ofBits 52 11 x.toBits.toNat

/-- The parts of a single given by its bits. -/
def Parts.ofSingle (bits : Nat) : Parts := .ofBits 23 8 bits

/-- The parts of a half given by its bits. -/
def Parts.ofHalf (bits : Nat) : Parts := .ofBits 10 5 bits

/-- The same number with a significand of `bits` bits, for one whose own is not longer and whose
range is smaller. -/
def Parts.widen (bits : Nat) : Parts → Parts
  | .finite negative s =>
    let shift := bits - 1 - s.mantissa.log2
    let mantissa := s.mantissa * Nat.pow 2 shift
    .finite negative ⟨mantissa, s.exponent - shift, mantissa = Nat.pow 2 (bits - 1)⟩
  | p => p

/-- The bits of the significand of a single. -/
def singleBits : Nat := 24

/-- The double of the same value, for a single or a half: their range is well inside the range of
the normal doubles, so the value is exact. -/
def Parts.toDouble : Parts → Float
  | .nan => Float.ofBits 0x7ff8000000000000
  | .infinite negative => Float.ofBits (if negative then 0xfff0000000000000 else 0x7ff0000000000000)
  | .zero negative => Float.ofBits (if negative then 0x8000000000000000 else 0)
  | .finite negative s =>
    let top := s.mantissa.log2
    let biased := (s.exponent + top + 1023).toNat
    let fraction := (s.mantissa - Nat.pow 2 top) * Nat.pow 2 (52 - top)
    let sign := if negative then 0x8000000000000000 else 0
    Float.ofBits (UInt64.ofNat (sign + biased * 0x10000000000000 + fraction))

/-- How a finite number is written. -/
structure Style where
  /-- The least exponent of the leading digit that is written positionally. -/
  positionalFrom : Option Int
  /-- The greatest exponent of the leading digit that is written positionally. -/
  positionalTo : Option Int
  /-- A whole number written positionally ends in `.0`. -/
  pointZero : Bool
  /-- A positive exponent is written with a plus sign. -/
  plusExponent : Bool

/-- Plain decimal notation at every size, without a trailing `.0`. -/
def Style.plain : Style := ⟨none, none, false, false⟩

/-- Numbers in a JSON document. -/
def Style.json : Style := ⟨some (-5), some 15, true, true⟩

/-- Doubles inside a nested cell. -/
def Style.nestedDouble : Style := ⟨some (-5), some 15, true, false⟩

/-- Singles inside a nested cell. -/
def Style.nestedSingle : Style := ⟨some (-6), some 12, true, false⟩

/-- Whether a number whose leading digit stands for `10 ^ lead` is written positionally. -/
def Style.isPositional (n : Style) (lead : Int) : Bool :=
  (match n.positionalFrom with | none => true | some e => e ≤ lead) &&
  (match n.positionalTo with | none => true | some e => lead ≤ e)

/-- Digits with the decimal point where their exponent puts it. -/
def Style.positional (n : Style) (d : Decimal) : String :=
  let digits := Nat.repr d.digits
  match d.exponent with
  | .ofNat zeros =>
    digits ++ String.ofList (List.replicate zeros '0') ++ (if n.pointZero then ".0" else "")
  | .negSucc e =>
    let places := e + 1
    let cs := digits.toList
    if places < cs.length then
      String.ofList (cs.take (cs.length - places)) ++ "." ++ String.ofList (cs.drop (cs.length - places))
    else
      "0." ++ String.ofList (List.replicate (places - cs.length) '0') ++ digits

/-- One digit, the fraction if there is one, and the exponent. -/
def Style.scientific (n : Style) (d : Decimal) (lead : Int) : String :=
  let cs := (Nat.repr d.digits).toList
  let sign := if lead < 0 then "-" else if n.plusExponent then "+" else ""
  String.ofList (cs.take 1) ++ (if cs.length ≤ 1 then "" else "." ++ String.ofList (cs.drop 1))
    ++ "e" ++ sign ++ Nat.repr lead.natAbs

/-- A positive number in the style. -/
def Style.magnitude (n : Style) (s : Spacing) : String :=
  let d := s.shortest
  let lead := d.exponent + digitCount d.digits - 1
  if n.isPositional lead then n.positional d else n.scientific d lead

/-- The text of a number. Zero keeps its sign. -/
def Style.write (n : Style) : Parts → String
  | .nan => "NaN"
  | .infinite negative => if negative then "-inf" else "inf"
  | .zero negative => (if negative then "-0" else "0") ++ (if n.pointZero then ".0" else "")
  | .finite negative s => (if negative then "-" else "") ++ n.magnitude s

/-- Whether a double is neither infinite nor a NaN. -/
def isFiniteDouble (x : Float) : Bool :=
  match Parts.ofDouble x with
  | .nan => false
  | .infinite _ => false
  | _ => true

end DataClient.Number
