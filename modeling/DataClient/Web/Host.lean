import DataClient.Web.Domain

/-!
# Hosts

What names a machine in an address: a domain, an address of four bytes, or one of eight words. A
domain whose last label is a number has to be an address of four bytes.
-/

set_option autoImplicit false

namespace DataClient.Web

/-- Why a text is no address. -/
inductive UrlFault
  | emptyHost
  | invalidDomain
  | invalidDomainCharacter
  | invalidPort
  | invalidIpv4
  | invalidIpv6
  | relative
  deriving DecidableEq, Repr

/-- The wording of a fault. -/
def UrlFault.message : UrlFault → String
  | .emptyHost => "empty host"
  | .invalidDomain => "invalid international domain name"
  | .invalidDomainCharacter => "invalid domain character"
  | .invalidPort => "invalid port number"
  | .invalidIpv4 => "invalid IPv4 address"
  | .invalidIpv6 => "invalid IPv6 address"
  | .relative => "relative URL without a base"

inductive Host
  | domain (name : String)
  | ipv4 (address : Nat)
  | ipv6 (words : List Nat)
  deriving DecidableEq, Repr

/-! ## Addresses of four bytes -/

/-- A number in decimal, or in octal behind a `0`, or in hexadecimal behind `0x`. -/
def ipv4Number? (cs : List Char) : Option Nat :=
  let digits (base : Nat) (cs : List Char) : Option Nat :=
    cs.foldlM (fun n c => do
      let d ← Text.hexValue? c
      if d < base then some (n * base + d) else none) 0
  match cs with
  | [] => none
  | '0' :: 'x' :: rest => digits 16 rest
  | '0' :: 'X' :: rest => digits 16 rest
  | ['0'] => some 0
  | '0' :: rest => digits 8 rest
  | cs => digits 10 cs

/-- The labels of a domain; an empty last one does not count. -/
def ipv4Parts (cs : List Char) : List (List Char) :=
  let parts := Text.splitChars '.' cs
  if parts.getLast? = some [] then parts.dropLast else parts

/-- Whether the last label is a number. -/
def endsInNumber (cs : List Char) : Bool :=
  match (ipv4Parts cs).getLast? with
  | none => false
  | some last => (!last.isEmpty && last.all Text.isDigit) || (ipv4Number? last).isSome

/-- The address of its parts: all but the last are bytes, and the last fills what they leave. -/
def ipv4OfParts (parts : List Nat) : Except UrlFault Nat :=
  match parts.reverse with
  | [] => .error .invalidIpv4
  | last :: firsts =>
    let n := firsts.length
    if 3 < n ∨ firsts.any (255 < ·) ∨ Nat.pow 256 (4 - n) ≤ last then .error .invalidIpv4
    else .ok (firsts.reverse.foldl (fun acc b => acc * 256 + b) 0 * Nat.pow 256 (4 - n) + last)

/-- Reads an address of four bytes. -/
def readIpv4 (cs : List Char) : Except UrlFault Host :=
  match (ipv4Parts cs).mapM ipv4Number? with
  | none => .error .invalidIpv4
  | some numbers => (ipv4OfParts numbers).map .ipv4

/-- The four bytes of an address, with dots between them. -/
def writeIpv4 (address : Nat) : String :=
  Text.joinWith "." ([3, 2, 1, 0].map fun i => toString (address / Nat.pow 256 i % 256))

/-! ## Addresses of eight words -/

/-- A word of at most four hexadecimal digits. -/
def hexWord? (cs : List Char) : Option Nat :=
  if cs.isEmpty ∨ 4 < cs.length then none
  else cs.foldlM (fun n c => do return n * 16 + (← Text.hexValue? c)) 0

/-- A byte in decimal without leading zeros. -/
def decimalByte? (cs : List Char) : Option Nat :=
  match cs with
  | [] => none
  | ['0'] => some 0
  | '0' :: _ => none
  | cs =>
    if cs.all Text.isDigit then
      let n := cs.foldl (fun n c => n * 10 + Text.digitValue c) 0
      if n ≤ 255 then some n else none
    else none

/-- The words of a group without colons: one word, or, at the end, four bytes with dots. -/
def ipv6Group? (isLast : Bool) (cs : List Char) : Option (List Nat) :=
  match hexWord? cs with
  | some w => some [w]
  | none =>
    if !isLast then none
    else match (Text.splitChars '.' cs).mapM decimalByte? with
      | some [a, b, c, d] => some [a * 256 + b, c * 256 + d]
      | _ => none

/-- The words of groups with colons between them. -/
def ipv6Words? (mayEndDotted : Bool) : List (List Char) → Option (List Nat)
  | [] => some []
  | [g] => ipv6Group? mayEndDotted g
  | g :: gs => do return (← ipv6Group? false g) ++ (← ipv6Words? mayEndDotted gs)

/-- The texts before and behind the first `::`, if there is one. -/
def splitDouble? : List Char → Option (List Char × List Char)
  | ':' :: ':' :: rest => some ([], rest)
  | c :: rest => (splitDouble? rest).map fun (a, b) => (c :: a, b)
  | [] => none

/-- The words of one side of `::`. -/
def ipv6Side? (mayEndDotted : Bool) (cs : List Char) : Option (List Nat) :=
  if cs.isEmpty then some [] else ipv6Words? mayEndDotted (Text.splitChars ':' cs)

/-- Reads an address of eight words, of which `::` leaves out one or more that are zero. -/
def readIpv6 (cs : List Char) : Except UrlFault Host :=
  let words? : Option (List Nat) :=
    match splitDouble? cs with
    | none => (ipv6Side? true cs).filter (·.length = 8)
    | some (before, behind) => do
      let a ← ipv6Side? false before
      let b ← ipv6Side? true behind
      if a.length + b.length ≤ 7 then some (a ++ List.replicate (8 - a.length - b.length) 0 ++ b) else none
  match words? with
  | some words => .ok (.ipv6 words)
  | none => .error .invalidIpv6

/-- The number of zeros that a list begins with. -/
def leadingZeros (words : List Nat) : Nat := (words.takeWhile (· = 0)).length

/-- The start and the length of the first longest run of zeros. -/
def longestZeros (words : List Nat) : Nat × Nat :=
  (List.range words.length).foldl (fun best i =>
    let n := leadingZeros (words.drop i)
    if best.2 < n then (i, n) else best) (0, 0)

/-- The words of an address in hexadecimal, the first longest run of zeros as `::`. -/
def writeIpv6 (words : List Nat) : String :=
  let write (ws : List Nat) : String := Text.joinWith ":" (ws.map Text.hex)
  let (start, n) := longestZeros words
  if n < 2 then write words
  else write (words.take start) ++ "::" ++ write (words.drop (start + n))

/-! ## Hosts -/

/-- A host as it stands in an address. -/
def Host.write : Host → String
  | .domain name => name
  | .ipv4 address => writeIpv4 address
  | .ipv6 words => "[" ++ writeIpv6 words ++ "]"

/-- What stands between brackets, if a text begins with one. -/
def bracketed? (cs : List Char) : Option (Except UrlFault (List Char)) :=
  match cs with
  | '[' :: rest =>
    some (if rest.getLast? = some ']' then .ok rest.dropLast else .error .invalidIpv6)
  | _ => none

/-- Reads the host of an address whose scheme names machines. -/
def readHost [DomainReader] (cs : List Char) : Except UrlFault Host :=
  match bracketed? cs with
  | some inner => do readIpv6 (← inner)
  | none =>
    match DomainReader.domain? (Text.ofBytesLossy (percentDecode (String.ofList cs))) with
    | none => .error .invalidDomain
    | some name =>
      if name = "" then .error .emptyHost
      else if endsInNumber name.toList then readIpv4 name.toList
      else .ok (.domain name)

/-- The characters that no host of another scheme has. -/
def isOpaqueHostDelimiter (c : Char) : Bool :=
  c.toNat = 0 || "\t\n\r #/:<>?@[\\]^|".toList.contains c

/-- Reads the host of an address of another scheme. -/
def readOpaqueHost (cs : List Char) : Except UrlFault Host :=
  match bracketed? cs with
  | some inner => do readIpv6 (← inner)
  | none =>
    if cs.any isOpaqueHostDelimiter then .error .invalidDomainCharacter
    else .ok (.domain (percentEncode controls (String.ofList cs)))

end DataClient.Web
