import DataClient.Arrow.DataType
import DataClient.Arrow.Fragment
import DataClient.Bytes.Words
import DataClient.Number.Integer
import DataClient.Time.Zone

/-!
# Texts of quantities

How decimals, durations, intervals, dates and times are shown inside a cell. A date or time that
the calendar does not reach has no text; the note names its number and its type.
-/

set_option autoImplicit false

namespace DataClient.Arrow

/-! ## Decimals -/

/-- `n` zeros. -/
def zeros (n : Nat) : List Char := List.replicate n '0'

/-- A decimal: its digits are cut to the precision, then the point is put before the last `scale` of
them; a negative scale appends zeros. A number with fewer digits than its scale is not cut. -/
def decimalText (precision : Nat) (scale : Int) (value : Int) : Fragment :=
  let sign := if value < 0 then ['-'] else []
  let digits := (Nat.repr value.natAbs).toList
  let cut := sign ++ digits.take precision
  match scale with
  | .ofNat 0 => .of (String.ofList cut)
  | .negSucc n => .of (String.ofList (cut ++ zeros (n + 1)))
  | .ofNat places =>
    if places < digits.length then
      if cut.length < places then .crash .decimalCut
      else
        let whole := cut.length - places
        .of (String.ofList (cut.take whole ++ '.' :: cut.drop whole))
    else .of (String.ofList (sign ++ '0' :: '.' :: zeros (places - digits.length) ++ digits))

/-! ## Durations -/

/-- Whether a duration in a unit can be represented: it has to fit into milliseconds. -/
def durationFits (unit : TimeUnit) (value : Int) : Bool :=
  match unit with
  | .second => value.natAbs ≤ Number.signedMax / 1000
  | .millisecond => value.natAbs ≤ Number.signedMax
  | _ => true

/-- A fraction of a second without the zeros behind its last digit. -/
def fractionText (nanos : Nat) : String :=
  if nanos = 0 then ""
  else
    let digits := (Text.padZeros 9 (Nat.repr nanos)).toList
    "." ++ String.ofList (digits.reverse.dropWhile (· == '0')).reverse

/-- A duration in seconds, marked by `P` and `T`. -/
def durationText (unit : TimeUnit) (value : Int) : Fragment :=
  if !durationFits unit value then .crash .durationOutOfRange
  else if value = 0 then .of "P0D"
  else
    let seconds := value.natAbs / unit.perSecond
    let nanos := value.natAbs % unit.perSecond * (1000000000 / unit.perSecond)
    .of ((if value < 0 then "-" else "") ++ "PT" ++ toString seconds ++ fractionText nanos ++ "S")

/-! ## Intervals -/

/-- A number of a unit, unless it is zero. -/
def counted (n : Int) (unit : String) : List String :=
  if n = 0 then [] else [toString n ++ " " ++ unit]

/-- Hours, minutes and seconds of a signed number of ticks, those that are not zero. All have the
sign of the number; `places` digits stand behind the point of the seconds. -/
def clockParts (perSecond places : Nat) (ticks : Int) : List String :=
  let total := ticks.tdiv perSecond
  let fraction := ticks.tmod perSecond
  let seconds := total.tmod 60
  counted (total.tdiv 3600) "hours" ++ counted ((total.tdiv 60).tmod 60) "mins"
    ++ (if seconds = 0 ∧ fraction = 0 then []
      else [(if seconds < 0 ∨ fraction < 0 then "-" else "") ++ toString seconds.natAbs ++ "."
        ++ Text.padZeros places (Nat.repr fraction.natAbs) ++ " secs"])

/-- Years and months; the months count upwards also before zero. -/
def yearMonthText (months : Int) : String :=
  toString (months.fdiv 12) ++ " years " ++ toString (months.fmod 12) ++ " mons"

def dayTimeText (days millis : Int) : String :=
  Text.joinWith " " (counted days "days" ++ clockParts 1000 3 millis)

def monthDayNanoText (months days nanos : Int) : String :=
  Text.joinWith " "
    (counted months "mons" ++ counted days "days" ++ clockParts 1000000000 9 nanos)

/-! ## Dates and times -/

/-- A text, or a note that a number means no date or time. -/
def dated (what : String) (type : DataType) (value : Int) : Option String → Fragment
  | some s => .of s
  | none =>
    .unwritable ("Cast error: Failed to convert " ++ toString value ++ " to " ++ what ++ " for "
      ++ type.name)

/-- A time of day. Its whole seconds are read as an unsigned word of 32 bits. -/
def clockText? (perSecond : Nat) (value : Int) : Option String :=
  let seconds := Bytes.unsigned 32 (value.tdiv perSecond)
  let fraction := value.tmod perSecond
  if 86400 ≤ seconds ∨ fraction < 0 then none
  else some (Time.writeClock seconds
    ++ Time.writeFraction (fraction.toNat * (1000000000 / perSecond)))

/-- A timestamp, in local time if its type has a zone. -/
def timestampText? (unit : TimeUnit) (zone : Option String) (value : Int) : Option String :=
  let i := Time.Instant.ofUnits unit.perSecond value
  match zone.bind Time.offset? with
  | some offset => i.writeAt? offset
  | none => i.writeNaive?

end DataClient.Arrow
