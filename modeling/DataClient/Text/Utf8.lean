import DataClient.Text.Chars

/-!
# Bytes as text

Strict decoding accepts exactly well-formed UTF-8. Lossy decoding replaces each maximal ill-formed
run (the longest beginning of a character that could still have become one, or a single byte) by
U+FFFD and goes on behind it.
-/

set_option autoImplicit false

namespace DataClient.Text

/-- The character that stands for bytes that are no character. -/
def replacement : Char := Char.ofNat 0xFFFD

/-- Whether a byte continues a character. -/
def isContinuation (b : UInt8) : Bool := 0x80 ≤ b && b ≤ 0xBF

/-- The payload of a continuation byte. -/
def continuationBits (b : UInt8) : Nat := b.toNat % 64

/-- Whether `b` may follow `lead` as the second byte of a character of three or four bytes: this
excludes overlong forms, surrogates and code points past the last one. -/
def secondOk (lead b : UInt8) : Bool :=
  if lead = 0xE0 then 0xA0 ≤ b && b ≤ 0xBF
  else if lead = 0xED then 0x80 ≤ b && b ≤ 0x9F
  else if lead = 0xF0 then 0x90 ≤ b && b ≤ 0xBF
  else if lead = 0xF4 then 0x80 ≤ b && b ≤ 0x8F
  else isContinuation b

/-- The character that begins with `lead`, and how many of the bytes `more` behind it belong to it;
for an ill-formed run, how many of them belong to the run. -/
def decodeOne (lead : UInt8) (more : List UInt8) : Option Char × Nat :=
  if lead < 0x80 then (some (Char.ofNat lead.toNat), 0)
  else if 0xC2 ≤ lead ∧ lead ≤ 0xDF then
    match more with
    | a :: _ =>
      if isContinuation a then (some (Char.ofNat (lead.toNat % 32 * 64 + continuationBits a)), 1)
      else (none, 0)
    | [] => (none, 0)
  else if 0xE0 ≤ lead ∧ lead ≤ 0xEF then
    match more with
    | a :: rest =>
      if secondOk lead a then
        match rest with
        | b :: _ =>
          if isContinuation b then
            (some (Char.ofNat
              (lead.toNat % 16 * 4096 + continuationBits a * 64 + continuationBits b)), 2)
          else (none, 1)
        | [] => (none, 1)
      else (none, 0)
    | [] => (none, 0)
  else if 0xF0 ≤ lead ∧ lead ≤ 0xF4 then
    match more with
    | a :: rest =>
      if secondOk lead a then
        match rest with
        | b :: rest' =>
          if isContinuation b then
            match rest' with
            | c :: _ =>
              if isContinuation c then
                (some (Char.ofNat (lead.toNat % 8 * 262144 + continuationBits a * 4096
                  + continuationBits b * 64 + continuationBits c)), 3)
              else (none, 2)
            | [] => (none, 2)
          else (none, 1)
        | [] => (none, 1)
      else (none, 0)
    | [] => (none, 0)
  else (none, 0)

/-- Decodes, with the replacement character for each ill-formed run. -/
def decodeLossy : List UInt8 → List Char
  | [] => []
  | lead :: more =>
    let (c, n) := decodeOne lead more
    c.getD replacement :: decodeLossy (more.drop n)
  termination_by bytes => bytes.length
  decreasing_by simp only [List.length_drop, List.length_cons]; omega

/-- Decodes well-formed UTF-8. -/
def decode? : List UInt8 → Option (List Char)
  | [] => some []
  | lead :: more =>
    match decodeOne lead more with
    | (some c, n) => (decode? (more.drop n)).map (c :: ·)
    | (none, _) => none
  termination_by bytes => bytes.length
  decreasing_by simp only [List.length_drop, List.length_cons]; omega

/-- The bytes as a text, with replacements. -/
def ofBytesLossy (bytes : ByteArray) : String :=
  match String.fromUTF8? bytes with
  | some s => s
  | none => String.ofList (decodeLossy bytes.data.toList)

/-- The bytes as a text, if they are one. -/
def ofBytes? (bytes : ByteArray) : Option String := String.fromUTF8? bytes

end DataClient.Text
