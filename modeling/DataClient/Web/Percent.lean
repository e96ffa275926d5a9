import DataClient.Text.Utf8

/-!
# Percent encoding

Texts in addresses are written as bytes; a byte that cannot stand for itself is written as `%` and
two hexadecimal digits. Which bytes can, depends on the part of the address. Parameters of a query
have an encoding of their own, in which a space is written as `+`.
-/

set_option autoImplicit false

namespace DataClient.Web

/-- The bytes that do not stand for themselves in some part of an address. -/
abbrev EncodeSet := UInt8 → Bool

/-- Whether a byte is one of the given characters. -/
def isOneOf (cs : String) (b : UInt8) : Bool := cs.toList.any fun c => c.toNat = b.toNat

/-- Control characters and everything beyond ASCII. -/
def controls : EncodeSet := fun b => b < 0x20 || 0x7F ≤ b

/-- Encoded in a fragment. -/
def fragmentSet : EncodeSet := fun b => controls b || isOneOf " \"<>`" b

/-- Encoded in the path of an address that is read. -/
def pathSet : EncodeSet := fun b => fragmentSet b || isOneOf "#?\x7b\x7d" b

/-- Encoded in a segment that is added to a path. -/
def segmentSet : EncodeSet := fun b => pathSet b || isOneOf "/%\\" b

/-- Encoded in a user name or a password. -/
def userInfoSet : EncodeSet := fun b => pathSet b || isOneOf "/:;=@[\\]^|" b

/-- Encoded in a query. -/
def querySet : EncodeSet := fun b => controls b || isOneOf " \"#<>" b

/-- Encoded in a query of an address whose scheme names machines. -/
def specialQuerySet : EncodeSet := fun b => querySet b || isOneOf "'" b

/-- The upper case hexadecimal digit of a value below sixteen. -/
def upperHexDigit (n : Nat) : Char := if n < 10 then Char.ofNat (48 + n) else Char.ofNat (55 + n)

/-- A byte as `%` and two digits. -/
def escapeByte (b : UInt8) : List Char :=
  ['%', upperHexDigit (b.toNat / 16), upperHexDigit (b.toNat % 16)]

/-- A byte, encoded if it has to be. -/
def encodeByte (set : EncodeSet) (b : UInt8) : List Char :=
  if set b then escapeByte b else [Char.ofNat b.toNat]

/-- Bytes, those encoded that have to be. -/
def encodeBytes (set : EncodeSet) (bytes : List UInt8) : List Char := bytes.flatMap (encodeByte set)

/-- The bytes of a text. -/
def utf8 (s : String) : List UInt8 := s.toUTF8.data.toList

/-- A text in a part of an address. -/
def percentEncode (set : EncodeSet) (s : String) : String := String.ofList (encodeBytes set (utf8 s))

/-- The value of a hexadecimal digit given as a byte. -/
def hexByte? (b : UInt8) : Option Nat := Text.hexValue? (Char.ofNat b.toNat)

/-- Undoes the encoding; a `%` without two digits behind it stands for itself. -/
def decodeBytes : List UInt8 → List UInt8
  | 0x25 :: a :: b :: rest =>
    match hexByte? a, hexByte? b with
    | some x, some y => UInt8.ofNat (x * 16 + y) :: decodeBytes rest
    | _, _ => 0x25 :: decodeBytes (a :: b :: rest)
  | b :: rest => b :: decodeBytes rest
  | [] => []

/-- The bytes that a part of an address stands for. -/
def percentDecode (s : String) : ByteArray := ⟨(decodeBytes (utf8 s)).toArray⟩

/-! ## Parameters -/

/-- Whether a byte stands for itself in a parameter. -/
def isPlain (b : UInt8) : Bool :=
  (0x30 ≤ b && b ≤ 0x39) || (0x41 ≤ b && b ≤ 0x5A) || (0x61 ≤ b && b ≤ 0x7A)
    || isOneOf "*-._" b

/-- A byte of a parameter. -/
def formByte (b : UInt8) : List Char :=
  if b = 0x20 then ['+'] else if isPlain b then [Char.ofNat b.toNat] else escapeByte b

/-- A name or a value of a parameter. -/
def formEncode (s : String) : String := String.ofList ((utf8 s).flatMap formByte)

/-- A parameter: its name and its value. -/
def formPair (p : String × String) : String := formEncode p.1 ++ "=" ++ formEncode p.2

/-- Adds parameters to a query, which may be empty. -/
def appendPairs (query : String) (ps : List (String × String)) : String :=
  ps.foldl (fun q p => (if q = "" then "" else q ++ "&") ++ formPair p) query

/-- The text that a name or a value stands for. -/
def formDecode (s : String) : String :=
  Text.ofBytesLossy ⟨(decodeBytes ((utf8 s).map fun b => if b = 0x2B then 0x20 else b)).toArray⟩

/-- The two sides of the first `=`; without one the second side is empty. -/
def splitPair (s : String) : String × String :=
  let cs := s.toList
  (String.ofList (cs.takeWhile (· != '=')), String.ofList ((cs.dropWhile (· != '=')).drop 1))

/-- The parameters of a query. -/
def parsePairs (query : String) : List (String × String) :=
  ((Text.splitChars '&' query.toList).filter (!·.isEmpty)).map fun part =>
    let (name, value) := splitPair (String.ofList part)
    (formDecode name, formDecode value)

end DataClient.Web
