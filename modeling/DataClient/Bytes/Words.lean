/-!
# Words in a byte array

Unsigned and signed little-endian words at a position, and parts of a byte array.
-/

set_option autoImplicit false

namespace DataClient.Bytes

/-- The number written by `n` bytes from `pos` on, least significant first. -/
def word? (b : ByteArray) (pos : Nat) : (n : Nat) → Option Nat
  | 0 => some 0
  | n + 1 =>
    match b[pos]?, word? b (pos + 1) n with
    | some x, some rest => some (x.toNat + 256 * rest)
    | _, _ => none

theorem lt_size_of_word? {b : ByteArray} {pos n v : Nat} (h : word? b pos (n + 1) = some v) :
    pos < b.size := by
  unfold word? at h
  split at h
  · rename_i hx _
    exact (getElem?_eq_some_iff.1 hx).1
  · cases h

/-- A word of two bytes. -/
def u16? (b : ByteArray) (pos : Nat) : Option Nat := word? b pos 2

/-- A word of four bytes. -/
def u32? (b : ByteArray) (pos : Nat) : Option Nat := word? b pos 4

/-- A word of eight bytes. -/
def u64? (b : ByteArray) (pos : Nat) : Option Nat := word? b pos 8

/-- The number that `n` means as a word of `bits` bits in two's complement. -/
def signed (bits n : Nat) : Int :=
  if n < Nat.pow 2 (bits - 1) then n else (n : Int) - Nat.pow 2 bits

/-- The word of `bits` bits that means `i`. -/
def unsigned (bits : Nat) (i : Int) : Nat := (i % Nat.pow 2 bits).toNat

/-- A signed number of `n` bytes. -/
def int? (b : ByteArray) (pos n : Nat) : Option Int := (word? b pos n).map (signed (8 * n))

/-- The `len` bytes from `start` on, if there are as many. -/
def slice? (b : ByteArray) (start len : Nat) : Option ByteArray :=
  if start + len ≤ b.size then some (b.extract start (start + len)) else none

/-- The bit at an index, least significant bit of each byte first. -/
def bit (b : ByteArray) (i : Nat) : Bool :=
  match b[i / 8]? with
  | some x => x.toNat.testBit (i % 8)
  | none => false

end DataClient.Bytes
