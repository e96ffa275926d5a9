import DataClient.Bytes.Base64
import Mathlib.Algebra.Order.Group.Nat

/-!
# Base64 is decoded

The decoder of the standard alphabet with padding (`ofBase64?`) gives back the bytes that were
encoded: four digits are three bytes, and a last group that is padded is one byte or two.
-/

set_option autoImplicit false

namespace DataClient.Bytes

/-- The value of a digit. -/
def base64Value? (c : Char) : Option Nat :=
  if 'A' ≤ c ∧ c ≤ 'Z' then some (c.toNat - 'A'.toNat)
  else if 'a' ≤ c ∧ c ≤ 'z' then some (c.toNat - 'a'.toNat + 26)
  else if '0' ≤ c ∧ c ≤ '9' then some (c.toNat - '0'.toNat + 52)
  else if c = '+' then some 62
  else if c = '/' then some 63
  else none

/-- The number that digits stand for behind those of `acc`. -/
def base64Number? (acc : Nat) : List Char → Option Nat
  | [] => some acc
  | c :: cs => (base64Value? c).bind fun v => base64Number? (acc * 64 + v) cs

/-- The bytes of groups of four digits; the last group may be padded. -/
def ofBase64Chars? : List Char → Option (List UInt8)
  | [] => some []
  | a :: b :: c :: d :: rest =>
    if c = '=' ∧ d = '=' ∧ rest = [] then
      (base64Number? 0 [a, b]).map fun n => [UInt8.ofNat (n / 16)]
    else if d = '=' ∧ rest = [] then
      (base64Number? 0 [a, b, c]).map fun n => [UInt8.ofNat (n / 1024), UInt8.ofNat (n / 4)]
    else
      (base64Number? 0 [a, b, c, d]).bind fun n => (ofBase64Chars? rest).map fun bytes =>
        UInt8.ofNat (n / 65536) :: UInt8.ofNat (n / 256) :: UInt8.ofNat n :: bytes
  | _ => none

/-- The bytes that a text in base64 stands for. -/
def ofBase64? (s : String) : Option ByteArray := (ofBase64Chars? s.toList).map fun bs => ⟨bs.toArray⟩

theorem base64Value?_base64Digit : ∀ n < 64, base64Value? (base64Digit n) = some n := by decide

theorem base64Digit_ne_pad : ∀ n < 64, base64Digit n ≠ '=' := by decide

theorem base64Number?_cons {acc n : Nat} (h : n < 64) (cs : List Char) :
    base64Number? acc (base64Digit n :: cs) = base64Number? (acc * 64 + n) cs := by
  rw [base64Number?, base64Value?_base64Digit n h, Option.bind_some]

theorem ofNat_eq {n : Nat} {b : UInt8} (h : n % 256 = b.toNat) : UInt8.ofNat n = b :=
  UInt8.toNat_inj.1 ((UInt8.toNat_ofNat' ..).trans h)

theorem ofBase64Chars?_base64Chars (bs : List UInt8) : ofBase64Chars? (base64Chars bs) = some bs := by
  induction bs using base64Chars.induct with
  | case1 a b c rest ih =>
    have ha := a.toNat_lt
    have hb := b.toNat_lt
    have hc := c.toNat_lt
    have hpad := base64Digit_ne_pad
      ((a.toNat * 65536 + b.toNat * 256 + c.toNat) % 64) (Nat.mod_lt _ (by decide))
    unfold base64Chars ofBase64Chars?
    rw [if_neg fun h => hpad h.2.1, if_neg fun h => hpad h.1, base64Number?_cons (by omega),
      base64Number?_cons (by omega), base64Number?_cons (by omega), base64Number?_cons (by omega), ih]
    simp only [base64Number?, Option.bind_some, Option.map_some]
    rw [ofNat_eq (b := a) (by omega), ofNat_eq (b := b) (by omega), ofNat_eq (b := c) (by omega)]
  | case2 a b =>
    have ha := a.toNat_lt
    have hb := b.toNat_lt
    have hpad := base64Digit_ne_pad
      ((a.toNat * 65536 + b.toNat * 256) / 64 % 64) (Nat.mod_lt _ (by decide))
    unfold base64Chars ofBase64Chars?
    rw [if_neg fun h => hpad h.1, if_pos ⟨rfl, rfl⟩, base64Number?_cons (by omega),
      base64Number?_cons (by omega), base64Number?_cons (by omega)]
    simp only [base64Number?, Option.map_some]
    rw [ofNat_eq (b := a) (by omega), ofNat_eq (b := b) (by omega)]
  | case3 a =>
    have ha := a.toNat_lt
    unfold base64Chars ofBase64Chars?
    rw [if_pos ⟨rfl, rfl, rfl⟩, base64Number?_cons (by omega), base64Number?_cons (by omega)]
    simp only [base64Number?, Option.map_some]
    rw [ofNat_eq (b := a) (by omega)]
  | case4 => rfl

/-- **Encoded bytes are decoded.** -/
theorem ofBase64?_toBase64 (bytes : ByteArray) : ofBase64? (toBase64 bytes) = some bytes := by
  rw [ofBase64?, toBase64, String.toList_ofList, ofBase64Chars?_base64Chars]
  rfl

end DataClient.Bytes
