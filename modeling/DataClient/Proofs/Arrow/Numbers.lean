import Mathlib.Algebra.Group.Int.Defs
import DataClient.Proofs.Arrow.Typed

/-!
# Numbers in slots

A slot of `n` bytes writes one number: the one whose bytes these are, least significant first, in two's
complement if the type is signed (`Bytes.Writes`). What is read of a slot is the number that it writes
(`Arrow.Vector.writes_iff`).
-/

set_option autoImplicit false

namespace DataClient

namespace Bytes

/-- The numbers that words of `n` bytes stand for. -/
def IsNumber (signed : Bool) (n : Nat) (x : Int) : Prop :=
  if signed then -2 ^ (8 * n - 1) ≤ x ∧ x < 2 ^ (8 * n - 1) else 0 ≤ x ∧ x < 2 ^ (8 * n)

/-- The `n` bytes from a position on write a number. -/
structure Writes (signed : Bool) (n : Nat) (b : ByteArray) (pos : Nat) (x : Int) : Prop where
  number : IsNumber signed n x
  bytes : (suffix b pos).take n = ofWord n (unsigned (8 * n) x)

/-- The number that a word stands for. -/
def numberOf (signed : Bool) (n w : Nat) : Int := if signed then Bytes.signed (8 * n) w else w

/-! ## Two's complement -/

theorem pow_eq (n : Nat) : Nat.pow 256 n = 2 ^ (8 * n) := by
  rw [Nat.pow_mul]
  rfl

theorem two_mul_half {n : Nat} (hn : 0 < n) : 2 ^ (8 * n) = 2 * 2 ^ (8 * n - 1) := by
  rw [← Nat.pow_succ']
  congr 1
  omega

/-- A number is written as its remainder. -/
theorem cast_unsigned (n : Nat) (x : Int) : (unsigned (8 * n) x : Int) = x % (2 ^ (8 * n) : Nat) :=
  Int.toNat_of_nonneg (Int.emod_nonneg x (Int.natCast_ne_zero.2 (Nat.ne_of_gt (Nat.two_pow_pos (8 * n)))))

theorem unsigned_lt (n : Nat) (x : Int) : unsigned (8 * n) x < Nat.pow 256 n := by
  rw [pow_eq, ← Int.ofNat_lt, cast_unsigned]
  exact Int.emod_lt_of_pos x (Int.natCast_pos.2 (Nat.two_pow_pos (8 * n)))

theorem isNumber_numberOf {n w : Nat} (hn : 0 < n) (hw : w < Nat.pow 256 n) (signed : Bool) :
    IsNumber signed n (numberOf signed n w) := by
  rw [pow_eq] at hw
  have hhalf := two_mul_half hn
  cases signed with
  | false =>
    show 0 ≤ (w : Int) ∧ (w : Int) < 2 ^ (8 * n)
    exact ⟨Int.natCast_nonneg w, by exact_mod_cast hw⟩
  | true =>
    show -2 ^ (8 * n - 1) ≤ Bytes.signed (8 * n) w ∧ Bytes.signed (8 * n) w < 2 ^ (8 * n - 1)
    have hcast : ((2 ^ (8 * n - 1) : Nat) : Int) = 2 ^ (8 * n - 1) := by push_cast; rfl
    have hall : Nat.pow 2 (8 * n) = 2 ^ (8 * n) := rfl
    have hhalf' : Nat.pow 2 (8 * n - 1) = 2 ^ (8 * n - 1) := rfl
    unfold Bytes.signed
    rw [hall, hhalf', ← hcast]
    split <;> omega

/-- A word is the one that its number is written as. -/
theorem unsigned_numberOf {n w : Nat} (hw : w < Nat.pow 256 n) (signed : Bool) :
    unsigned (8 * n) (numberOf signed n w) = w := by
  rw [pow_eq] at hw
  have hmod : (w : Int) % (2 ^ (8 * n) : Nat) = w :=
    Int.emod_eq_of_lt (Int.natCast_nonneg w) (by exact_mod_cast hw)
  have hunsigned : unsigned (8 * n) (w : Int) = w := by
    show ((w : Int) % (2 ^ (8 * n) : Nat)).toNat = w
    rw [hmod, Int.toNat_natCast]
  cases signed with
  | false => exact hunsigned
  | true =>
    show unsigned (8 * n) (Bytes.signed (8 * n) w) = w
    unfold Bytes.signed
    split
    · exact hunsigned
    · show (((w : Int) - (2 ^ (8 * n) : Nat)) % (2 ^ (8 * n) : Nat)).toNat = w
      rw [Int.sub_emod_right, hmod, Int.toNat_natCast]

/-- A number is the one that its word stands for. -/
theorem numberOf_unsigned {signed : Bool} {n : Nat} {x : Int} (hn : 0 < n) (hx : IsNumber signed n x) :
    numberOf signed n (unsigned (8 * n) x) = x := by
  have hhalf := two_mul_half hn
  have hcast : ((2 ^ (8 * n - 1) : Nat) : Int) = 2 ^ (8 * n - 1) := by push_cast; rfl
  have hpow : ((2 ^ (8 * n) : Nat) : Int) = 2 ^ (8 * n) := by push_cast; rfl
  have hword := cast_unsigned n x
  cases signed with
  | false =>
    obtain ⟨hlow, hhigh⟩ : 0 ≤ x ∧ x < 2 ^ (8 * n) := hx
    show (unsigned (8 * n) x : Int) = x
    rw [hword, Int.emod_eq_of_lt hlow (hpow ▸ hhigh)]
  | true =>
    obtain ⟨hlow, hhigh⟩ : -2 ^ (8 * n - 1) ≤ x ∧ x < 2 ^ (8 * n - 1) := hx
    rw [← hcast] at hlow hhigh
    show Bytes.signed (8 * n) (unsigned (8 * n) x) = x
    have hall : Nat.pow 2 (8 * n) = 2 ^ (8 * n) := rfl
    have hhalf' : Nat.pow 2 (8 * n - 1) = 2 ^ (8 * n - 1) := rfl
    unfold Bytes.signed
    rw [hall, hhalf']
    by_cases hneg : x < 0
    · have hmod : x % (2 ^ (8 * n) : Nat) = x + (2 ^ (8 * n) : Nat) := by
        rw [← Int.add_emod_right, Int.emod_eq_of_lt (by omega) (by omega)]
      rw [if_neg (by omega), hword, hmod, Int.add_sub_cancel]
    · have hmod : x % (2 ^ (8 * n) : Nat) = x := Int.emod_eq_of_lt (by omega) (by omega)
      rw [if_pos (by omega), hword, hmod]

/-! ## What bytes write -/

theorem exists_word? {b : ByteArray} {pos n : Nat} (h : pos + n ≤ b.size) :
    ∃ w, word? b pos n = some w := by
  induction n generalizing pos with
  | zero => exact ⟨0, rfl⟩
  | succ n ih =>
    have hnext : pos + 1 + n ≤ b.size := by omega
    obtain ⟨w, hw⟩ := ih hnext
    exact ⟨_, word?_succ_eq_some.2 ⟨_, w, getElem?_pos b pos (by omega), hw, rfl⟩⟩

/-- Bytes write the number that their word stands for, and no other. -/
theorem writes_iff {signed : Bool} {b : ByteArray} {pos n w : Nat} {x : Int} (hn : 0 < n)
    (hw : word? b pos n = some w) : Writes signed n b pos x ↔ x = numberOf signed n w := by
  have hlt := word?_lt hw
  constructor
  · intro h
    have hbytes : suffix b pos = ofWord n (unsigned (8 * n) x) ++ suffix b (pos + n) := by
      rw [← h.bytes, ← suffix_eq_append]
    have hword := word?_of_suffix (unsigned_lt n x) hbytes
    rw [hw] at hword
    rw [Option.some.inj hword, numberOf_unsigned hn h.number]
  · rintro rfl
    refine ⟨isNumber_numberOf hn hlt signed, ?_⟩
    rw [unsigned_numberOf hlt, take_suffix_of_word? hw]

end Bytes

namespace Arrow.Vector

open Bytes

/-- What is read of a slot. -/
def slotNumber (signed : Bool) (data : ByteArray) (width i : Nat) : Int :=
  if signed then slotInt data width i else slotNat data width i

/-- The bytes of a slot write what is read of it. -/
theorem writes_iff {signed : Bool} {data : ByteArray} {width i : Nat} {x : Int} (hwidth : 0 < width)
    (hi : (i + 1) * width ≤ data.size) :
    Writes signed width data (i * width) x ↔ x = slotNumber signed data width i := by
  rw [Nat.succ_mul] at hi
  obtain ⟨w, hw⟩ := exists_word? hi
  have hslot : slotNat data width i = w := by
    rw [slotNat, hw, Option.getD_some]
  have hnumber : slotNumber signed data width i = numberOf signed width w := by
    rw [slotNumber, slotInt, hslot]
    rfl
  rw [Bytes.writes_iff hwidth hw, hnumber]

/-- The slot of values of fixed width writes a number. -/
def Stores (signed : Bool) (v : Vector) (i : Nat) (x : Int) : Prop :=
  ∃ type shape width data, v = .fixed type shape width data ∧ Writes signed width data (i * width) x

/-- A slot of a sound vector stores what is read of it. -/
theorem stores_iff {signed : Bool} {type : DataType} {shape : Shape} {width : Nat} {data : ByteArray}
    (hv : (Vector.fixed type shape width data).Sound) (hwidth : 0 < width) {i : Nat}
    (hi : i < shape.length) {x : Int} :
    Stores signed (.fixed type shape width data) i x ↔ x = slotNumber signed data width i := by
  have hdata : (i + 1) * width ≤ data.size := by
    cases hv with
    | fixed _ _ h => exact Nat.le_trans (Nat.mul_le_mul_right width hi) h
  rw [← writes_iff hwidth hdata]
  constructor
  · rintro ⟨_, _, _, _, heq, h⟩
    cases heq
    exact h
  · exact fun h => ⟨_, _, _, _, rfl, h⟩

theorem isNumber_slot {signed : Bool} {type : DataType} {shape : Shape} {width : Nat}
    {data : ByteArray} (hv : (Vector.fixed type shape width data).Sound) (hwidth : 0 < width) {i : Nat}
    (hi : i < shape.length) : IsNumber signed width (slotNumber signed data width i) := by
  obtain ⟨_, _, _, _, heq, h⟩ := (stores_iff hv hwidth hi).2 rfl
  cases heq
  exact h.number

end Arrow.Vector

end DataClient
