import DataClient.Time.Calendar

/-!
# Offsets from UTC

A zone is known only by its offset: a sign, two digits of hours and, with or without a colon, two
digits of minutes. The minutes may be any two digits; the whole offset is less than a day.
-/

set_option autoImplicit false

namespace DataClient.Time

/-- The value of a decimal digit. -/
def digit? (c : Char) : Option Nat := if c.isDigit then some (c.toNat - '0'.toNat) else none

/-- The number of two digits. -/
def twoDigits? (a b : Char) : Option Nat := do return 10 * (← digit? a) + (← digit? b)

/-- An offset in seconds, from its sign and its digits. -/
def offsetOf? (sign a b c d : Char) : Option Int := do
  let hours ← twoDigits? a b
  let minutes ← twoDigits? c d
  let seconds := hours * 3600 + minutes * 60
  if 86400 ≤ seconds then none
  else if sign = '+' then some seconds
  else if sign = '-' then some (-seconds)
  else none

/-- The offset in seconds that a zone stands for. -/
def offset? (zone : String) : Option Int :=
  match zone.toList with
  | [sign, a, b, ':', c, d] => offsetOf? sign a b c d
  | [sign, a, b, c, d] => offsetOf? sign a b c d
  | [sign, a, b] => offsetOf? sign a b '0' '0'
  | _ => none

/-- An offset in hours and minutes; `Z` stands for none. -/
def writeOffset (offset : Int) : String :=
  if offset = 0 then "Z"
  else
    let minutes := offset.natAbs / 60
    (if offset < 0 then "-" else "+") ++ twoDigits (minutes / 60) ++ ":" ++ twoDigits (minutes % 60)

/-- The instant as a local date and time with its offset, if its date in UTC has a written form. -/
def Instant.writeAt? (i : Instant) (offset : Int) : Option String :=
  i.date?.map fun _ =>
    let l : Instant := ⟨i.seconds + offset, i.nanos⟩
    (Date.ofDays (l.seconds.fdiv 86400)).write ++ "T" ++ writeClock l.secondOfDay
      ++ writeFraction l.nanos ++ writeOffset offset

end DataClient.Time
