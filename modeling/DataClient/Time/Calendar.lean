import DataClient.Text.Chars

/-!
# Calendar dates and clock times

Days and instants are counted from the first of January 1970, in the proleptic Gregorian calendar.
Only dates within `minYear` and `maxYear` have a written form.
-/

set_option autoImplicit false

namespace DataClient.Time

/-- A calendar date. -/
structure Date where
  year : Int
  month : Nat
  day : Nat
  deriving DecidableEq, Repr

/-- The first year that dates are written in. -/
def minYear : Int := -262143

/-- The last year that dates are written in. -/
def maxYear : Int := 262142

/-- The date a number of days after the first of January 1970. Years are counted from March, so
that the leap day is the last of its year, and in cycles of 400 years. -/
def Date.ofDays (days : Int) : Date :=
  let z := days + 719468
  let era := z.fdiv 146097
  let dayOfEra := (z - era * 146097).toNat
  let yearOfEra := (dayOfEra - dayOfEra / 1460 + dayOfEra / 36524 - dayOfEra / 146096) / 365
  let dayOfYear := dayOfEra - (365 * yearOfEra + yearOfEra / 4 - yearOfEra / 100)
  let marchMonth := (5 * dayOfYear + 2) / 153
  let day := dayOfYear - (153 * marchMonth + 2) / 5 + 1
  let month := if marchMonth < 10 then marchMonth + 3 else marchMonth - 9
  let year := (yearOfEra : Int) + era * 400 + (if month ≤ 2 then 1 else 0)
  ⟨year, month, day⟩

/-- The date, if it has a written form. -/
def Date.ofDays? (days : Int) : Option Date :=
  let d := Date.ofDays days
  if minYear ≤ d.year ∧ d.year ≤ maxYear then some d else none

/-- A number below one hundred in two digits. -/
def twoDigits (n : Nat) : String := Text.padZeros 2 (Nat.repr n)

/-- Four digits for the years 0 to 9999; all others have a sign and at least four digits. -/
def writeYear (year : Int) : String :=
  if 0 ≤ year ∧ year ≤ 9999 then Text.padZeros 4 (Nat.repr year.toNat)
  else (if year < 0 then "-" else "+") ++ Text.padZeros 4 (Nat.repr year.natAbs)

/-- Year, month and day. -/
def Date.write (d : Date) : String :=
  writeYear d.year ++ "-" ++ twoDigits d.month ++ "-" ++ twoDigits d.day

/-- Hours, minutes and seconds of a second of the day. -/
def writeClock (second : Nat) : String :=
  twoDigits (second / 3600) ++ ":" ++ twoDigits (second / 60 % 60) ++ ":" ++ twoDigits (second % 60)

/-- A fraction of a second: nothing, or as many groups of three digits as it takes. -/
def writeFraction (nanos : Nat) : String :=
  if nanos = 0 then ""
  else if nanos % 1000000 = 0 then "." ++ Text.padZeros 3 (Nat.repr (nanos / 1000000))
  else if nanos % 1000 = 0 then "." ++ Text.padZeros 6 (Nat.repr (nanos / 1000))
  else "." ++ Text.padZeros 9 (Nat.repr nanos)

/-- An instant: whole seconds since the epoch and nanoseconds within the second. -/
structure Instant where
  seconds : Int
  nanos : Nat
  deriving DecidableEq, Repr

/-- The instant `count` units after the epoch, `perSecond` units to the second. -/
def Instant.ofUnits (perSecond : Nat) (count : Int) : Instant :=
  let seconds := count.fdiv perSecond
  ⟨seconds, (count - seconds * perSecond).toNat * (1000000000 / perSecond)⟩

/-- The date of an instant, if it has a written form. -/
def Instant.date? (i : Instant) : Option Date := Date.ofDays? (i.seconds.fdiv 86400)

/-- The second of the day of an instant. -/
def Instant.secondOfDay (i : Instant) : Nat := (i.seconds.fmod 86400).toNat

/-- Date and clock time joined by `T`, without a zone. -/
def Instant.writeNaive? (i : Instant) : Option String :=
  i.date?.map fun d => d.write ++ "T" ++ writeClock i.secondOfDay ++ writeFraction i.nanos

/-- Epoch milliseconds as a UTC date and time with three places, or as the bare number where the
date has no written form. -/
def writeMillis (ms : Int64) : String :=
  let i := Instant.ofUnits 1000 ms.toInt
  match i.date? with
  | some d =>
    d.write ++ "T" ++ writeClock i.secondOfDay ++ "." ++ Text.padZeros 3 (Nat.repr (i.nanos / 1000000)) ++ "Z"
  | none => toString ms.toInt

end DataClient.Time
