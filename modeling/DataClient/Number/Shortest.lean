/-!
# Shortest decimal digits

The decimal with the fewest digits that reads back as a given binary floating point number, and
of those the nearest to it. The number is given exactly, as an interval of rationals around it:
everything strictly inside the interval reads back, the ends do so when the significand is even.

Nothing here depends on a particular machine format; `Spacing` carries what a format decides.
-/

set_option autoImplicit false

namespace DataClient.Number

/-- How many decimal digits a natural number is written with; zero has none. -/
def digitCount (n : Nat) : Nat := if n = 0 then 0 else (Nat.repr n).length

/-- A positive binary floating point number `mantissa * 2 ^ exponent` with what decides which
decimals read back as it: the gap to the next lower number may be half of the gap above. -/
structure Spacing where
  mantissa : Nat
  exponent : Int
  /-- The number below is only half as far away as the number above. -/
  lowerHalved : Bool

/-- The interval of decimals that read back, over one common denominator. -/
structure Interval where
  low : Nat
  value : Nat
  high : Nat
  denominator : Nat
  /-- Whether the two ends themselves read back. -/
  closed : Bool

/-- All three points times four are whole multiples of the last binary place. -/
def Spacing.interval (s : Spacing) : Interval :=
  let low := 4 * s.mantissa - (if s.lowerHalved then 1 else 2)
  let value := 4 * s.mantissa
  let high := 4 * s.mantissa + 2
  let closed := s.mantissa % 2 = 0
  match s.exponent with
  | .ofNat e => ⟨low * Nat.pow 2 e, value * Nat.pow 2 e, high * Nat.pow 2 e, 4, closed⟩
  | .negSucc e => ⟨low, value, high, 4 * Nat.pow 2 (e + 1), closed⟩

/-- Decimal digits (as a number) times a power of ten. -/
structure Decimal where
  digits : Nat
  exponent : Int
  deriving DecidableEq, Repr

/-- The exponent of the leading decimal digit of a positive fraction. -/
def leadingExponent (num den : Nat) : Int :=
  if den ≤ num then (digitCount (num / den) : Int) - 1
  else -(digitCount ((den + num - 1) / num - 1) : Int)

/-- The two neighbours of the value on the grid of multiples of `10 ^ place`, as the count of grid
steps below it, together with the interval in grid steps over a common denominator. -/
def Interval.scaled (i : Interval) (place : Int) : Interval :=
  match place with
  | .ofNat p => { i with denominator := i.denominator * Nat.pow 10 p }
  | .negSucc p =>
    let scale := Nat.pow 10 (p + 1)
    { i with low := i.low * scale, value := i.value * scale, high := i.high * scale }

/-- Whether `n` grid steps lie in the interval. -/
def Interval.holds (i : Interval) (n : Nat) : Bool :=
  let x := n * i.denominator
  if i.closed then i.low ≤ x && x ≤ i.high else i.low < x && x < i.high

/-- The grid point that reads back, if one does: of two the nearer, of two equally near the even. -/
def Interval.pick? (i : Interval) : Option Nat :=
  let below := i.value / i.denominator
  let above := below + 1
  match i.holds below, i.holds above with
  | true, true =>
    let down := i.value - below * i.denominator
    let up := above * i.denominator - i.value
    if down < up then some below
    else if up < down then some above
    else if below % 2 = 0 then some below else some above
  | true, false => some below
  | false, true => some above
  | false, false => none

/-- Drops trailing zeros into the exponent. -/
def Decimal.trim (fuel : Nat) (d : Decimal) : Decimal :=
  match fuel with
  | 0 => d
  | fuel + 1 =>
    if d.digits % 10 = 0 ∧ d.digits ≠ 0 then Decimal.trim fuel ⟨d.digits / 10, d.exponent + 1⟩ else d

/-- Tries grids of `n`, `n + 1`, … digits until one holds a point that reads back. -/
def Interval.search (i : Interval) (lead : Int) : (tries n : Nat) → Decimal
  | 0, n => ⟨(i.scaled (lead - n)).value / (i.scaled (lead - n)).denominator, lead - n⟩
  | tries + 1, n =>
    let place := lead - n
    match (i.scaled place).pick? with
    | some k => ⟨k, place⟩
    | none => i.search lead tries (n + 1)

/-- The shortest decimal that reads back as the number; `s.mantissa` is positive. Seventeen
digits always suffice for the formats in use. -/
def Spacing.shortest (s : Spacing) : Decimal :=
  let i := s.interval
  let d := i.search (leadingExponent i.value i.denominator) 17 0
  d.trim (digitCount d.digits)

end DataClient.Number
