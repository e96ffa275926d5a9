import DataClient.Proofs.Number.Rounding
import Mathlib.Algebra.Order.Field.Power
import Mathlib.Algebra.Order.Ring.Rat

/-!
# Numbers scaled by a power of ten

A double stands for a rational number (`toRat?`). An integer that is scaled up is rounded, multiplied by a
rounded power of ten and rounded again (`exists_mul`). It is out of the range of the doubles only if it is
next to the limit (`exists_scale`), and in the range it has changed by three units in the last place at most
(`exists_toRat?_neg_scale`).
-/

set_option autoImplicit false

namespace DataClient.Number

open Float.Model Float.Model.UnpackedFloat
open Json.Reader (powerOfTen scale)

/-! ## What a double stands for -/

/-- The number that a double stands for, if it is finite. -/
def toRat? (x : Float) : Option ℚ :=
  match x.toModel.unpack with
  | .finite sign m e _ => some (sign.apply m * 2 ^ e)
  | .zero _ => some 0
  | .infinity _ => none
  | .notANumber => none

theorem toRat?_neg {x : Float} {m : Nat} {e : Int} {h : 0 < m}
    (hx : x.toModel.unpack = .finite .positive m e h)
    (hlow : 2 ^ 52 ≤ m) (hhigh : m < 2 ^ 53) (he : -1074 ≤ e) (he' : e ≤ 971) :
    toRat? (-x) = some (-(m * 2 ^ e : ℚ)) := by
  have hneg : (-x).toModel.unpack = .finite .negative m e h := by
    show (Float.Model.pack x.toModel.unpack.neg).unpack = _
    rw [hx]
    exact unpack_pack hlow hhigh he he' h
  unfold toRat?
  rw [hneg]
  simp [Sign.apply]

theorem beq_zero_eq_false {x : Float} {m : Nat} {e : Int} {h : 0 < m}
    (hx : x.toModel.unpack = .finite .positive m e h) : (x == 0.0) = false := by
  have hzero : (0.0 : Float).toModel.unpack = .zero .positive := by rfl
  show (x.toModel.unpack.compare (0.0 : Float).toModel.unpack == some .eq) = false
  rw [hx, hzero]
  rfl

/-- Bounds on a multiple of a magnitude bound how far its negative is off. -/
theorem abs_neg_add_le {q : ℚ} {v n k : Nat} (hq : q * 2 ^ (k + 50) = v) (hlow : n * (2 ^ 50 - 1) * 2 ^ k ≤ v)
    (hhigh : v ≤ n * (2 ^ 50 + 1) * 2 ^ k) : |-q + n| ≤ n / 2 ^ 50 := by
  have hpos : (0 : ℚ) < 2 ^ k := by positivity
  have hlow' : (n : ℚ) * (2 ^ 50 - 1) * 2 ^ k ≤ q * 2 ^ 50 * 2 ^ k := by
    calc (n : ℚ) * (2 ^ 50 - 1) * 2 ^ k = (n * (2 ^ 50 - 1) * 2 ^ k : Nat) := by norm_num
      _ ≤ v := Nat.cast_le.2 hlow
      _ = q * 2 ^ 50 * 2 ^ k := by rw [← hq, pow_add, mul_comm (2 ^ k), mul_assoc]
  have hhigh' : q * 2 ^ 50 * 2 ^ k ≤ (n : ℚ) * (2 ^ 50 + 1) * 2 ^ k := by
    calc q * 2 ^ 50 * 2 ^ k = v := by rw [← hq, pow_add, mul_comm (2 ^ k), mul_assoc]
      _ ≤ (n * (2 ^ 50 + 1) * 2 ^ k : Nat) := Nat.cast_le.2 hhigh
      _ = (n : ℚ) * (2 ^ 50 + 1) * 2 ^ k := by norm_num
  have hlow := le_of_mul_le_mul_right hlow' hpos
  have hhigh := le_of_mul_le_mul_right hhigh' hpos
  rw [le_div_iff₀ (by positivity), ← abs_of_pos (show (0 : ℚ) < 2 ^ 50 by positivity), ← abs_mul, abs_le]
  constructor <;> linarith

/-- The negative of a normal double is next to that of an integer if there are such bounds on its magnitude. -/
theorem exists_toRat?_neg {x : Float} {r i n k : Nat} {h : 0 < r}
    (hx : x.toModel.unpack = .finite .positive r ((i : Nat) - 52) h) (hr : 2 ^ 52 ≤ r) (hr' : r < 2 ^ 53)
    (hi : i ≤ 1023) (hlow : n * (2 ^ 50 - 1) * 2 ^ (k + 2) ≤ r * 2 ^ i * 2 ^ k)
    (hhigh : r * 2 ^ i * 2 ^ k ≤ n * (2 ^ 50 + 1) * 2 ^ (k + 2)) :
    ∃ q, toRat? (-x) = some q ∧ |q + n| ≤ n / 2 ^ 50 := by
  refine ⟨_, toRat?_neg hx hr hr' (by omega) (by omega), abs_neg_add_le ?_ hlow hhigh⟩
  rw [zpow_sub₀ (by norm_num), zpow_natCast, show k + 2 + 50 = k + 52 by omega, pow_add _ k]
  push_cast
  norm_num
  ring

/-- Three units in the last place and the digits left out are less than one part in `2 ^ 50`. -/
theorem three_units {p m v : Nat} (hle : p ≤ m) (hge : m * 2 ^ 60 ≤ p * (2 ^ 60 + 1))
    (hdown : p * (2 ^ 52 - 1) ^ 3 ≤ v) (hup : v ≤ p * (2 ^ 52 + 1) ^ 3) :
    m * (2 ^ 50 - 1) * 2 ^ (104 + 2) ≤ v ∧ v ≤ m * (2 ^ 50 + 1) * 2 ^ (104 + 2) := by
  omega

/-! ## Products -/

theorem toModel_mul {x y : Float} {m m' : Nat} {e e' : Int} {h : 0 < m} {h' : 0 < m'}
    (hx : x.toModel.unpack = .finite .positive m e h) (hy : y.toModel.unpack = .finite .positive m' e' h') :
    (x * y).toModel = .pack (roundWithAccuracy .binary64 .positive (m * m') (e + e') .exact) := by
  show Float.Model.pack (UnpackedFloat.mul .binary64 x.toModel.unpack y.toModel.unpack) = _
  rw [hx, hy]
  rfl

/-- What stays below a limit has no more places than the limit: otherwise its leading bits alone would
reach it. -/
theorem le_of_below {p k top : Nat} (hp : 2 ^ 53 - 1 ≤ p) (h : p * 2 ^ k < (2 ^ 53 - 1) * 2 ^ top) : k ≤ top := by
  by_contra hlarge
  have hpow : 2 ^ top ≤ 2 ^ k := Nat.pow_le_pow_right (by decide) (by omega)
  exact absurd h (Nat.not_lt.2 (Nat.mul_le_mul hp hpow))

/-- **A product is rounded once**: it has changed by three units at most, those of the factors included,
and stays below a limit that is far enough away. -/
theorem exists_mul {x y : Float} {a b : Nat} (hx : Near x a) (hy : Near y b) : ∃ r i h,
    (x * y).toModel = .pack (.finite .positive r ((i : Nat) - 52) h) ∧ 2 ^ 52 ≤ r ∧ r < 2 ^ 53 ∧
      a * b * (2 ^ 52 - 1) ^ 3 ≤ r * 2 ^ i * 2 ^ 104 ∧ r * 2 ^ i * 2 ^ 104 ≤ a * b * (2 ^ 52 + 1) ^ 3 ∧
      ∀ top, a * b * (2 ^ 52 + 1) ^ 2 < (2 ^ 53 - 1) * 2 ^ top → i + 52 ≤ top := by
  obtain ⟨m, i, hm, hx, hlow, hhigh, hi, hshrunk, hgrown⟩ := hx.exists_unpack
  obtain ⟨m', i', hm', hy, hlow', hhigh', hi', hshrunk', hgrown'⟩ := hy.exists_unpack
  have hbits : 2 ^ 52 * 2 ^ 52 ≤ m * m' := Nat.mul_le_mul hlow hlow'
  have hlog : 104 ≤ (m * m').log2 := (Nat.le_log2 (Nat.ne_of_gt (Nat.mul_pos hm hm'))).2 hbits
  obtain ⟨r, k, hpos, hround, hr, hr', hdown, hup, hk, hcarry⟩ :=
    exists_round .positive (m := m * m') (e := (i - 52) + (i' - 52)) (by omega) (by omega)
  obtain ⟨l, rfl⟩ : ∃ l, k = l + 52 := ⟨k - 52, by omega⟩
  have hvalue : r * 2 ^ (i + i' + l) * 2 ^ 104 = r * 2 ^ (l + 52) * 2 ^ 52 * 2 ^ (i + i') := by
    rw [Nat.pow_add 2 (i + i'), Nat.pow_add 2 l]
    ring
  have hfactors : m * m' * 2 ^ (i + i') = (m * 2 ^ i) * (m' * 2 ^ i') := by
    rw [Nat.pow_add]
    ring
  have hproduct : m * m' * 2 ^ (i + i') ≤ a * b * (2 ^ 52 + 1) ^ 2 := by
    rw [hfactors]
    calc m * 2 ^ i * (m' * 2 ^ i') ≤ (a * (2 ^ 52 + 1)) * (b * (2 ^ 52 + 1)) := Nat.mul_le_mul hgrown hgrown'
      _ = a * b * (2 ^ 52 + 1) ^ 2 := by ring
  refine ⟨r, i + i' + l, hpos, ?_, hr, hr', ?_, ?_, fun top htop => ?_⟩
  · rw [toModel_mul hx hy, hround]
    exact congrArg Float.Model.pack (finite_eq rfl rfl (by omega))
  · rw [hvalue]
    calc a * b * (2 ^ 52 - 1) ^ 3 = (a * (2 ^ 52 - 1)) * (b * (2 ^ 52 - 1)) * (2 ^ 52 - 1) := by ring
      _ ≤ (m * 2 ^ i) * (m' * 2 ^ i') * (2 ^ 52 - 1) := by gcongr
      _ = m * m' * (2 ^ 52 - 1) * 2 ^ (i + i') := by rw [← hfactors, Nat.mul_right_comm]
      _ ≤ r * 2 ^ (l + 52) * 2 ^ 52 * 2 ^ (i + i') := Nat.mul_le_mul_right _ hdown
  · rw [hvalue]
    calc r * 2 ^ (l + 52) * 2 ^ 52 * 2 ^ (i + i') ≤ m * m' * (2 ^ 52 + 1) * 2 ^ (i + i') :=
          Nat.mul_le_mul_right _ hup
      _ = m * m' * 2 ^ (i + i') * (2 ^ 52 + 1) := Nat.mul_right_comm _ _ _
      _ ≤ a * b * (2 ^ 52 + 1) ^ 2 * (2 ^ 52 + 1) := Nat.mul_le_mul_right _ hproduct
      _ = a * b * (2 ^ 52 + 1) ^ 3 := by ring
  · have hbelow := Nat.lt_of_le_of_lt hproduct htop
    have hplaces : i + i' ≤ top :=
      le_of_below (Nat.le_trans (by decide : 2 ^ 53 - 1 ≤ 2 ^ 52 * 2 ^ 52) hbits) hbelow
    obtain ⟨j, rfl⟩ : ∃ j, top = j + (i + i') := ⟨top - (i + i'), by omega⟩
    rw [Nat.pow_add 2 j, ← Nat.mul_assoc] at hbelow
    have := hcarry j (Nat.lt_of_mul_lt_mul_right hbelow)
    omega

/-- **A product that does not overflow**, though each factor may exceed its number by a unit. -/
theorem isInfinite_mul {x y : Float} {a b top : Nat} (hx : Near x a) (hy : Near y b) (htop : top ≤ 1075)
    (h : a * b * (2 ^ 52 + 1) ^ 2 < (2 ^ 53 - 1) * 2 ^ top) : scale.isInfinite (x * y) = false := by
  obtain ⟨r, i, hpos, hmul, hr, hr', -, -, hlimit⟩ := exists_mul hx hy
  have hplaces := hlimit top h
  exact isInfinite_eq_false
    ((congrArg Float.Model.unpack hmul).trans (unpack_pack hr hr' (by omega) (by omega) hpos))

/-! ## Scaling by powers of ten -/

theorem exists_scale_of_neg (fuel : Nat) (x : Float) {e : Int} (he : e < 0) :
    ∃ y, scale fuel x e = some y := by
  induction fuel generalizing x e with
  | zero => exact ⟨x, rfl⟩
  | succ fuel ih =>
    unfold scale
    split
    · rw [if_neg (by omega)]
      exact ⟨_, rfl⟩
    · rename_i hlarge
      split
      · exact ⟨x, rfl⟩
      · rw [if_neg (by omega)]
        exact ih _ (by omega)

section Scale

variable {n e : Nat} (hn : 0 < n) (hfits : n < 2 ^ 64)

include hn hfits

/-- Scaling up multiplies by one power of ten, and fails if that is none of the doubles. -/
theorem scale_eq_some (fuel : Nat) {z : Float} : scale (fuel + 1) n.toUInt64.toFloat e = some z ↔
    e ≤ 308 ∧ n.toUInt64.toFloat * powerOfTen e = z ∧ scale.isInfinite z = false := by
  unfold scale
  by_cases he : e ≤ 308
  · rw [if_pos (by omega), if_pos (by omega), Int.natAbs_natCast]
    simp only [Option.ite_none_left_eq_some, Bool.not_eq_true, Option.some.injEq, he, true_and]
    constructor
    · rintro ⟨h, rfl⟩
      exact ⟨rfl, h⟩
    · rintro ⟨rfl, h⟩
      exact ⟨h, rfl⟩
  · obtain ⟨m, i, hm, hx, -⟩ := (near_toFloat hn hfits).exists_unpack
    rw [if_neg (by omega), beq_zero_eq_false hx, if_neg Bool.false_ne_true, if_pos (by omega)]
    simp [he]

/-- **Scaling up gives a number** if the product is not too close to the range of the doubles. -/
theorem exists_scale {top : Nat} (he : e ≤ 308) (htop : top ≤ 1075)
    (h : n * 10 ^ e * (2 ^ 52 + 1) ^ 2 < (2 ^ 53 - 1) * 2 ^ top) (fuel : Nat) :
    ∃ y, scale (fuel + 1) n.toUInt64.toFloat e = some y :=
  ⟨_, (scale_eq_some hn hfits fuel).2
    ⟨he, rfl, isInfinite_mul (near_toFloat hn hfits) (near_powerOfTen he) htop h⟩⟩

/-- **The negative of an integer that is scaled up**, for a number that starts with its digits. -/
theorem exists_toRat?_neg_scale {m fuel : Nat} {z : Float}
    (h : scale (fuel + 1) n.toUInt64.toFloat e = some z) (hle : n * 10 ^ e ≤ m)
    (hge : m * 2 ^ 60 ≤ n * 10 ^ e * (2 ^ 60 + 1)) : ∃ q, toRat? (-z) = some q ∧ |q + m| ≤ m / 2 ^ 50 := by
  obtain ⟨he, rfl, hfinite⟩ := (scale_eq_some hn hfits fuel).1 h
  obtain ⟨r, i, hpos, hmul, hr, hr', hdown, hup, -⟩ := exists_mul (near_toFloat hn hfits) (near_powerOfTen he)
  have hplaces : (i : Int) - 52 ≤ 971 := by
    by_contra hlarge
    have hinfinite := @isInfinite_pack .positive r (i - 52) (by omega) hpos
    rw [← hmul] at hinfinite
    exact absurd (hfinite.symm.trans hinfinite) Bool.false_ne_true
  have hunpack := (congrArg Float.Model.unpack hmul).trans (unpack_pack hr hr' (by omega) hplaces hpos)
  obtain ⟨hlow, hhigh⟩ := three_units hle hge hdown hup
  exact exists_toRat?_neg hunpack hr hr' (by omega) hlow hhigh

/-- **The negative of an integer of 64 bits.** -/
theorem exists_toRat?_neg_toFloat : ∃ q, toRat? (-n.toUInt64.toFloat) = some q ∧ |q + n| ≤ n / 2 ^ 50 := by
  obtain ⟨m, i, hm, hx, hlow, hhigh, hi, hdown, hup⟩ := (near_toFloat hn hfits).exists_unpack
  have hdown' : n * (2 ^ 50 - 1) * 2 ^ (0 + 2) ≤ m * 2 ^ i * 2 ^ 0 := by omega
  have hup' : m * 2 ^ i * 2 ^ 0 ≤ n * (2 ^ 50 + 1) * 2 ^ (0 + 2) := by omega
  exact exists_toRat?_neg hx hlow hhigh hi hdown' hup'

end Scale

end DataClient.Number
