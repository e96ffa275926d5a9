import DataClient.Toml.Reader

/-!
# Reading values without parts

Strings in their four forms, numbers, truth values, dates and times.
-/

set_option autoImplicit false

namespace DataClient.Toml

open Reader

/-! ## Strings -/

/-- Whether a character stands for itself between double quotes. -/
def isBasicChar (c : Char) : Bool := isCommentChar c && c != '"' && c != '\\'

/-- Whether a character stands for itself between single quotes. -/
def isLiteralChar (c : Char) : Bool := isCommentChar c && c != '\''

/-- A character given by so many hexadecimal digits. -/
def hexEscape (count : Nat) : Reader Char :=
  meaning (fun digits : List Char =>
    let n := digits.foldl (fun n d => n * 16 + (Text.hexValue? d).getD 0) 0
    if digits.length = count ∧ n.isValidChar then some (Char.ofNat n) else none)
    (fun c =>
      let digits := (c.rest.take count).takeWhile fun d => (Text.hexValue? d).isSome
      .ok (digits, ⟨c.offset + digits.length, c.rest.drop digits.length⟩))

/-- What a letter behind a backslash stands for. -/
def shortEscape? (c : Char) : Option Char :=
  match c with
  | 'b' => some '\x08'
  | 'f' => some '\x0c'
  | 'n' => some '\n'
  | 'r' => some '\r'
  | 't' => some '\t'
  | '\\' => some '\\'
  | '"' => some '"'
  | _ => none

/-- What is left of an escape behind its backslash. A letter without a meaning is refused behind
itself if it is ASCII. -/
def escapeTail : Reader Char := do
  match ← peek with
  | none => refuse
  | some 'u' => do discard (char fun _ => true); must (hexEscape 4)
  | some 'U' => do discard (char fun _ => true); must (hexEscape 8)
  | some c =>
    match shortEscape? c with
    | some d => do discard (char fun _ => true); return d
    | none => do
      if c.toNat < 0x80 then discard (char fun _ => true)
      stop

def escape : Reader (List Char) := do
  literal "\\"
  return [← escapeTail]

/-- A string between double quotes on one line. -/
def basicString : Reader String := do
  literal "\""
  let parts ← many (either (List.singleton <$> char isBasicChar) escape)
  must (literal "\"")
  return String.ofList parts.flatten

/-- A string between single quotes on one line. -/
def literalString : Reader String := do
  literal "'"
  let cs ← chars isLiteralChar
  must (literal "'")
  return String.ofList cs

/-- A backslash at the end of a line, with all blanks and line ends behind it; it stands for
nothing. -/
def joinedLine : Reader (List Char) := do
  literal "\\"
  blanks
  newline
  discard (many (either (discard (char isBlank)) newline))
  return []

/-- A line end in a string. -/
def innerNewline : Reader (List Char) := do newline; return ['\n']

/-- One or two quotes before what `next` accepts. -/
def fewQuotes (quote : Char) (next : Reader Unit) : Reader (List Char) :=
  let quotes (n : Nat) : Reader (List Char) := do
    literal (String.ofList (List.replicate n quote))
    ahead next
    return List.replicate n quote
  either (quotes 2) (quotes 1)

/-- A string between triple quotes. A few quotes inside it belong to it; `behind` reads the contents
behind them. -/
def tripleQuoted (quote : Char) (content : Reader (List Char)) (behind : Reader (List (List Char))) :
    Reader String := do
  let mark := String.ofList (List.replicate 3 quote)
  literal mark
  discard (maybe newline)
  let start ← many content
  let more ← many (do
    let quotes ← fewQuotes quote (discard (char (· != quote)))
    return quotes ++ (← behind).flatten)
  let last ← maybe (fewQuotes quote (literal mark))
  must (literal mark)
  return String.ofList (start.flatten ++ more.flatten ++ last.getD [])

/-- A string between triple double quotes. -/
def basicText : Reader String :=
  let content : Reader (List Char) :=
    either (List.singleton <$> char isBasicChar) (either joinedLine (either escape innerNewline))
  tripleQuoted '"' content (many content)

/-- A string between triple single quotes. -/
def literalText : Reader String :=
  let content : Reader (List Char) := either (List.singleton <$> char isLiteralChar) innerNewline
  tripleQuoted '\'' content (many1 content)

def string : Reader String :=
  either basicText (either basicString (either literalText literalString))

/-! ## Numbers -/

/-- A digit of a class behind an underscore, which has to be one. -/
def behindUnderscore (isDigit : Char → Bool) : Reader Char := do
  literal "_"
  must (char isDigit)

/-- More digits, single underscores between them left out. -/
def moreDigits (isDigit : Char → Bool) : Reader (List Char) :=
  many (either (char isDigit) (behindUnderscore isDigit))

/-- Digits, the first of which must be there. -/
def digits (isDigit : Char → Bool) : Reader (List Char) := do
  let d ← char isDigit
  return d :: (← moreDigits isDigit)

def isSign (c : Char) : Bool := c = '+' || c = '-'

/-- The sign of a number. -/
def sign : Reader (Option Char) := maybe (char isSign)

/-- A decimal integer: a zero, or digits that do not begin with one. -/
def decimal : Reader (Option Char × List Char) := do
  let s ← sign
  let ds ← either
    (do
      let d ← char fun c => Text.isDigit c && c != '0'
      return d :: (← moreDigits Text.isDigit))
    (List.singleton <$> char Text.isDigit)
  return (s, ds)

/-- An integer of 64 bits. -/
def signed? (n : Int) : Option Int :=
  if -0x8000000000000000 ≤ n ∧ n < 0x8000000000000000 then some n else none

/-- The value of digits to a base. -/
def digitsValue (base : Nat) (ds : List Char) : Nat :=
  ds.foldl (fun n d => n * base + (Text.hexValue? d).getD 0) 0

/-- An integer to another base, behind its mark. -/
def basedInteger (mark : String) (base : Nat) : Reader Int :=
  must (meaning (fun ds => signed? (digitsValue base ds)) (do
    literal mark
    must (digits fun c => (Text.hexValue? c).any (· < base))))

/-- A decimal integer that fits 64 bits. A longer one is refused for good. -/
def decimalInteger : Reader Int := do
  ahead (discard decimal)
  must (meaning (fun (s, ds) =>
    let n : Int := digitsValue 10 ds
    signed? (if s = some '-' then -n else n)) decimal)

def integer : Reader Int := do
  let start := String.ofList ((← get).rest.take 2)
  if start = "0x" then basedInteger start 16
  else if start = "0o" then basedInteger start 8
  else if start = "0b" then basedInteger start 2
  else decimalInteger

/-- The fraction of a float, from its point on. -/
def fraction : Reader (List Char) := do
  literal "."
  must (digits Text.isDigit)

/-- The exponent of a float, from its letter on. -/
def exponent : Reader (Option Char × List Char) := do
  discard (char fun c => c = 'e' || c = 'E')
  let s ← sign
  return (s, ← must (digits Text.isDigit))

/-- The least number that rounds beyond the largest double. -/
def doubleLimit : Nat := Nat.pow 2 1024 - Nat.pow 2 970

/-- Whether `significand * 10 ^ exponent` rounds beyond the largest double. -/
def isBeyondDouble (significand : Nat) (exponent : Int) : Bool :=
  if significand = 0 then false
  else
    let lead : Int := (toString significand).length + exponent
    if 310 < lead then true
    else if lead < 308 then false
    else if 0 ≤ exponent then doubleLimit ≤ significand * Nat.pow 10 exponent.toNat
    else doubleLimit * Nat.pow 10 (-exponent).toNat ≤ significand

/-- The pieces of a float: sign, digits before and behind the point, and exponent. -/
def floatPieces : Reader (Option Char × List Char × List Char × Int) := do
  let (s, whole) ← decimal
  let value : Option Char × List Char → Int := fun (s, ds) =>
    if s = some '-' then -digitsValue 10 ds else digitsValue 10 ds
  either
    (do return (s, whole, [], value (← exponent)))
    (do
      let ds ← fraction
      let e ← maybe exponent
      return (s, whole, ds, (e.map value).getD 0))

/-- A float that is written in digits. One that is too large is refused for good. -/
def digitsFloat : Reader String := do
  ahead (discard floatPieces)
  must (meaning (fun (s, whole, ds, e) =>
    if s != some '-' ∧ isBeyondDouble (digitsValue 10 (whole ++ ds)) (e - ds.length) then none
    else some (String.ofList (s.toList ++ whole ++ (if ds.isEmpty then [] else '.' :: ds))
      ++ "e" ++ toString e)) floatPieces)

/-- A word that its first letter already stands for. -/
def word (w : String) : Reader String := do
  ahead (discard (char fun c => w.toList.head? = some c))
  must (literal w)
  return w

/-- A float that is no number in digits. -/
def wordFloat : Reader String := do
  let s ← sign
  return String.ofList s.toList ++ (← either (word "inf") (word "nan"))

def float : Reader String := either digitsFloat wordFloat

/-! ## Dates and times -/

/-- So many digits with a value in a range. -/
def field (count low high : Nat) : Reader Nat :=
  meaning (fun ds : List Char =>
    let n := digitsValue 10 ds
    if ds.length = count ∧ low ≤ n ∧ n ≤ high then some n else none)
    (fun c =>
      let ds := (c.rest.take count).takeWhile Text.isDigit
      .ok (ds, ⟨c.offset + ds.length, c.rest.drop ds.length⟩))

/-- The number of days of a month. -/
def monthLength (year month : Nat) : Nat :=
  if month = 2 then
    if year % 4 = 0 ∧ (year % 100 ≠ 0 ∨ year % 400 = 0) then 29 else 28
  else if [4, 6, 9, 11].contains month then 30
  else 31

/-- A date. After the first hyphen it can be nothing else. -/
def date : Reader Unit := do
  let year ← field 4 0 9999
  literal "-"
  must do
    let month ← field 2 1 12
    literal "-"
    discard (field 2 1 (monthLength year month))

/-- A time of the day. After the first colon it can be nothing else. -/
def time : Reader Unit := do
  discard (field 2 0 23)
  literal ":"
  must do
    discard (field 2 0 59)
    literal ":"
    discard (field 2 0 60)
    discard (maybe (do literal "."; discard (char Text.isDigit); discard (chars Text.isDigit)))

/-- The distance of a time from UTC. -/
def timeOffset : Reader Unit :=
  either (discard (char fun c => c = 'Z' || c = 'z')) do
    discard (char isSign)
    must do
      discard (field 2 0 23)
      literal ":"
      discard (field 2 0 59)

/-- A date, a time, or both with or without a distance from UTC. -/
def moment : Reader String := do
  let start ← get
  either
    (do
      date
      discard (maybe (do
        discard (char fun c => c = 'T' || c = 't' || c = ' ')
        time
        discard (maybe timeOffset))))
    time
  return String.ofList (start.rest.take ((← get).offset - start.offset))

end DataClient.Toml
