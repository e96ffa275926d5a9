import DataClient.Json.Reader
import Mathlib.Algebra.Order.Ring.Nat
import Mathlib.Tactic.GCongr
import Mathlib.Tactic.Linarith
import Mathlib.Tactic.NormNum
import Mathlib.Tactic.Ring

/-!
# Rounding to doubles

A positive number that is rounded to a double changes by less than one unit in the last place
(`exists_round`). The bounds are those of truncation and carry, not the one of the nearest double, and
they are enough to tell what a product is and whether it overflows. Integers of 64 bits and powers of ten
are rounded once (`near_toFloat`, `near_powerOfTen`).
-/

set_option autoImplicit false

namespace DataClient.Number

open Float.Model Float.Model.UnpackedFloat
open Json.Reader (powerOfTen scale)

theorem finite_eq {sign sign' : Sign} {m m' : Nat} {e e' : Int} (hsign : sign = sign') (hm : m = m')
    (he : e = e') {h : 0 < m} {h' : 0 < m'} :
    UnpackedFloat.finite sign m e h = .finite sign' m' e' h' := by
  subst hsign hm he
  rfl

/-! ## Shifting the significand -/

theorem shift_mantissa (em : ExtendedMantissa) (k : Nat) : (em >>> k).mantissa = em.mantissa / 2 ^ k := by
  induction k with
  | zero => exact (Nat.div_one _).symm
  | succ k ih =>
    have hstep : (em >>> (k + 1)).mantissa = (em >>> k).mantissa / 2 := rfl
    rw [hstep, ih, Nat.div_div_eq_div_mul, Nat.pow_succ]

/-- Rounding keeps the truncated significand or takes the next. -/
theorem roundedMantissa_bounds (em : ExtendedMantissa) :
    em.mantissa ≤ em.roundedMantissa ∧ em.roundedMantissa ≤ em.mantissa + 1 := by
  obtain ⟨m, r, s⟩ := em
  have heven : m + m % 2 ≤ m + 1 := by omega
  cases r <;> cases s
  · exact ⟨Nat.le_refl m, Nat.le_succ m⟩
  · exact ⟨Nat.le_refl m, Nat.le_succ m⟩
  · exact ⟨Nat.le_add_right m _, heven⟩
  · exact ⟨Nat.le_succ m, Nat.le_refl _⟩

theorem targetExponent_eq (e : Int) : Format.binary64.targetExponent e = max (e - 53) (-1074) := rfl

theorem shiftToTargetExponent_eq {m : Nat} {e : Int} (hm : 52 ≤ m.log2) (he : -1074 ≤ e) :
    shiftToTargetExponent .binary64 m e .exact
      = ((⟨m, false, false⟩ : ExtendedMantissa) >>> (m.log2 - 52), e + (m.log2 - 52 : Nat)) := by
  have htarget : Format.binary64.targetExponent (totalExponent m e) = e + (m.log2 - 52 : Nat) := by
    rw [targetExponent_eq, totalExponent]
    omega
  have hshift : (e + (m.log2 - 52 : Nat) - e).toNat = m.log2 - 52 := by omega
  rw [shiftToTargetExponent, htarget, shiftToExponent]
  rw [hshift]
  rfl

theorem log2_eq_of_bounds {m k : Nat} (hlo : 2 ^ k ≤ m) (hhi : m < 2 ^ (k + 1)) : m.log2 = k :=
  (Nat.log2_eq_iff (Nat.ne_of_gt (Nat.lt_of_lt_of_le (Nat.two_pow_pos k) hlo))).2 ⟨hlo, hhi⟩

theorem truncated_bounds {m : Nat} (hm : 52 ≤ m.log2) :
    2 ^ 52 ≤ m / 2 ^ (m.log2 - 52) ∧ m / 2 ^ (m.log2 - 52) < 2 ^ 53 := by
  have hpos : 0 < 2 ^ (m.log2 - 52) := Nat.two_pow_pos _
  have hne : m ≠ 0 := by
    rintro rfl
    simp at hm
  have hlow := Nat.log2_self_le hne
  have hhigh := Nat.lt_log2_self (n := m)
  constructor
  · rw [Nat.le_div_iff_mul_le hpos, ← Nat.pow_add, Nat.add_sub_cancel' hm]
    exact hlow
  · rw [Nat.div_lt_iff_lt_mul hpos, ← Nat.pow_add, show 53 + (m.log2 - 52) = m.log2 + 1 by omega]
    exact hhigh

/-- **Rounding**: truncation to 53 bits, perhaps the next significand, and perhaps one more bit. -/
theorem roundWithAccuracy_eq (sign : Sign) {m : Nat} {e : Int} (hm : 52 ≤ m.log2) (he : -1074 ≤ e) :
    ∃ r, m / 2 ^ (m.log2 - 52) ≤ r ∧ r ≤ m / 2 ^ (m.log2 - 52) + 1 ∧ (m.log2 = 52 → r = m) ∧
      2 ^ 52 ≤ r ∧ r ≤ 2 ^ 53 ∧ ∃ h : 0 < r / 2 ^ (r.log2 - 52),
        roundWithAccuracy .binary64 sign m e .exact
          = .finite sign (r / 2 ^ (r.log2 - 52)) (e + (m.log2 - 52 : Nat) + (r.log2 - 52 : Nat)) h := by
  obtain ⟨hlow, hhigh⟩ := truncated_bounds hm
  have htruncated : ((⟨m, false, false⟩ : ExtendedMantissa) >>> (m.log2 - 52)).mantissa
      = m / 2 ^ (m.log2 - 52) := shift_mantissa _ _
  obtain ⟨hr, hr'⟩ := roundedMantissa_bounds ((⟨m, false, false⟩ : ExtendedMantissa) >>> (m.log2 - 52))
  rw [htruncated] at hr hr'
  have hexact (hlog : m.log2 = 52) :
      ((⟨m, false, false⟩ : ExtendedMantissa) >>> (m.log2 - 52)).roundedMantissa = m := by
    rw [hlog]
    rfl
  have hround := shiftToTargetExponent_eq (m := m) (e := e) hm he
  generalize hfirst : ((⟨m, false, false⟩ : ExtendedMantissa) >>> (m.log2 - 52)) = first at *
  have hlog : 52 ≤ first.roundedMantissa.log2 := by
    rw [Nat.le_log2 (by omega)]
    omega
  have hagain := shiftToTargetExponent_eq (m := first.roundedMantissa)
    (e := e + (m.log2 - 52 : Nat)) hlog (by omega)
  have hmantissa := shift_mantissa ⟨first.roundedMantissa, false, false⟩
    (first.roundedMantissa.log2 - 52)
  have hpos : 0 < first.roundedMantissa / 2 ^ (first.roundedMantissa.log2 - 52) :=
    Nat.lt_of_lt_of_le (by decide) (truncated_bounds hlog).1
  refine ⟨first.roundedMantissa, hr, hr', hexact, by omega, by omega, hpos, ?_⟩
  unfold roundWithAccuracy
  rw [hround]
  dsimp only
  rw [hagain]
  dsimp only
  rw [dif_neg (by rw [hmantissa]; exact Nat.ne_of_gt hpos)]
  exact finite_eq rfl hmantissa rfl

/-- A significand that has carried to one more bit loses nothing when it is shifted back. -/
theorem shifted_back {r : Nat} (hlow : 2 ^ 52 ≤ r) (hhigh : r ≤ 2 ^ 53) :
    r / 2 ^ (r.log2 - 52) * 2 ^ (r.log2 - 52) = r := by
  rcases Nat.lt_or_ge r (2 ^ 53) with h | h
  · rw [log2_eq_of_bounds hlow h, Nat.sub_self, Nat.pow_zero, Nat.div_one, Nat.mul_one]
  · obtain rfl := Nat.le_antisymm hhigh h
    decide +kernel

/-- A number that has changed by a unit of its last place has changed by one part in `2 ^ 52` at most. -/
theorem unit_bounds {m r s : Nat} (hself : 2 ^ s * 2 ^ 52 ≤ m) (hr : m / 2 ^ s ≤ r) (hr' : r ≤ m / 2 ^ s + 1) :
    m * (2 ^ 52 - 1) ≤ r * 2 ^ s * 2 ^ 52 ∧ r * 2 ^ s * 2 ^ 52 ≤ m * (2 ^ 52 + 1) := by
  have hshrunk : m < (r + 1) * 2 ^ s :=
    (Nat.div_lt_iff_lt_mul (Nat.two_pow_pos s)).1 (Nat.lt_succ_of_le hr)
  have hgrown : r * 2 ^ s ≤ m + 2 ^ s := by
    calc r * 2 ^ s ≤ (m / 2 ^ s + 1) * 2 ^ s := Nat.mul_le_mul_right _ hr'
      _ = m / 2 ^ s * 2 ^ s + 2 ^ s := Nat.succ_mul _ _
      _ ≤ m + 2 ^ s := Nat.add_le_add_right (Nat.div_mul_le_self m _) _
  rw [Nat.add_mul, Nat.one_mul] at hshrunk
  generalize 2 ^ s = u at *
  generalize r * u = v at *
  omega

/-- **A rounded number has 53 bits and has changed by less than one unit in the last place**, and it
stays below a power of two if it was below it by as much as a unit. -/
theorem exists_round (sign : Sign) {m : Nat} {e : Int} (hm : 52 ≤ m.log2) (he : -1074 ≤ e) :
    ∃ (r k : Nat) (h : 0 < r), roundWithAccuracy .binary64 sign m e .exact = .finite sign r (e + k) h ∧
      2 ^ 52 ≤ r ∧ r < 2 ^ 53 ∧ m * (2 ^ 52 - 1) ≤ r * 2 ^ k * 2 ^ 52 ∧
      r * 2 ^ k * 2 ^ 52 ≤ m * (2 ^ 52 + 1) ∧ m.log2 ≤ 52 + k ∧
      ∀ j, m < (2 ^ 53 - 1) * 2 ^ j → k ≤ j := by
  obtain ⟨r, hr, hr', hexact, hlow, hhigh, hpos, hround⟩ := roundWithAccuracy_eq sign hm he
  have hlog : 52 ≤ r.log2 := (Nat.le_log2 (by omega)).2 hlow
  obtain ⟨hfinal, hfinal'⟩ := truncated_bounds hlog
  have hself : 2 ^ (m.log2 - 52) * 2 ^ 52 ≤ m := by
    rw [← Nat.pow_add, Nat.sub_add_cancel hm]
    exact Nat.log2_self_le (by rintro rfl; simp at hm)
  obtain ⟨hvalue_ge, hvalue_le⟩ := unit_bounds hself hr hr'
  have hvalue : r / 2 ^ (r.log2 - 52) * 2 ^ (m.log2 - 52 + (r.log2 - 52)) = r * 2 ^ (m.log2 - 52) := by
    rw [Nat.add_comm (m.log2 - 52), Nat.pow_add, ← Nat.mul_assoc, shifted_back hlow hhigh]
  refine ⟨r / 2 ^ (r.log2 - 52), m.log2 - 52 + (r.log2 - 52), hpos, ?_, hfinal, hfinal',
    hvalue ▸ hvalue_ge, hvalue ▸ hvalue_le, by omega, fun j hj => ?_⟩
  · rw [hround]
    exact finite_eq rfl rfl (by omega)
  · have hlt : m.log2 < 53 + j := by
      rw [Nat.log2_lt (by rintro rfl; simp at hm), Nat.pow_add]
      exact Nat.lt_of_lt_of_le hj (Nat.mul_le_mul_right _ (by decide))
    have hcarry : r.log2 ≤ 53 := by
      rw [← Nat.lt_succ_iff, Nat.log2_lt (by omega)]
      omega
    -- Only a number next to the limit can carry beyond it, and such a number is truncated to less
    -- than 53 ones.
    rcases Nat.lt_or_ge (m.log2 - 52) j with h | h
    · omega
    · obtain rfl : j = m.log2 - 52 := by omega
      have htrunc : m / 2 ^ (m.log2 - 52) < 2 ^ 53 - 1 := (Nat.div_lt_iff_lt_mul (Nat.two_pow_pos _)).2 hj
      have hsmall : r.log2 < 53 := by
        rw [Nat.log2_lt (by omega)]
        omega
      omega

/-! ## Packing -/

theorem unpackSign_packComponents (sign : Sign) (e : BitVec 11) (m : BitVec 52) :
    Sign.ofBitVec (unpackSign (packComponents .binary64 sign e m)) = sign := by
  have hbit : (sign.toBitVec ++ e ++ m).getLsbD 63 = sign.toBitVec.getLsbD 0 := by
    rw [BitVec.getLsbD_append, if_neg (by decide), BitVec.getLsbD_append, if_neg (by decide)]
  have hsign : unpackSign (packComponents .binary64 sign e m) = sign.toBitVec := by
    ext i hi
    obtain rfl : i = 0 := by omega
    refine (BitVec.getElem_cast _ _ hi).trans ?_
    rw [BitVec.getElem_extract]
    exact hbit
  rw [hsign]
  cases sign <;> rfl

/-- An exponent between the least and the greatest is that of a normal double. -/
theorem exists_unpack_eq {b : BitVec Format.binary64.numBits} (hones : unpackExponent b ≠ -1#11)
    (hzero : unpackExponent b ≠ 0#11) : ∃ h, UnpackedFloat.unpack .binary64 b
      = .finite (Sign.ofBitVec (unpackSign b)) (1#1 ++ unpackMantissa b).toNat
          ((unpackExponent b).toNat - (1023 + 52)) h := by
  have hpos : 0 < (1#1 ++ unpackMantissa b).toNat := by
    rw [BitVec.toNat_append]
    exact Nat.lt_of_lt_of_le (by decide) Nat.left_le_or
  refine ⟨hpos, ?_⟩
  unfold UnpackedFloat.unpack
  dsimp only
  rw [if_neg hones, if_neg hzero]
  rfl

/-- A normal number is packed into an exponent and what its significand has behind the leading one. -/
theorem pack_eq_packComponents {sign : Sign} {m : Nat} {e : Int} (hlow : 2 ^ 52 ≤ m) (hhigh : m < 2 ^ 53)
    (he : e ≤ 971) (h : 0 < m) : UnpackedFloat.pack .binary64 (.finite sign m e h)
      = packComponents .binary64 sign (BitVec.ofNat 11 (e + 1075).toNat) (BitVec.ofNat 52 m) := by
  have hbiased : (e + 1023 + 52).toNat = (e + 1075).toNat := by omega
  have hlog : m.log2 = 52 := log2_eq_of_bounds hlow hhigh
  have hfits : ¬ 2 ^ 11 ≤ (e + 1023 + 52).toNat + 1 := by omega
  show (if 2 ^ 11 ≤ (e + 1023 + 52).toNat + 1 then _ else if m.log2 + 1 = 53 then _ else _) = _
  rw [if_neg hfits, if_pos (by rw [hlog])]
  show packComponents .binary64 sign (BitVec.ofNat 11 (e + 1023 + 52).toNat) _ = _
  rw [hbiased]

/-- **A normal double is unpacked as it was packed.** -/
theorem unpack_pack {sign : Sign} {m : Nat} {e : Int} (hlow : 2 ^ 52 ≤ m) (hhigh : m < 2 ^ 53)
    (he : -1074 ≤ e) (he' : e ≤ 971) (h : 0 < m) :
    (Float.Model.pack (.finite sign m e h)).unpack = .finite sign m e h := by
  have hmantissa : (1#1 ++ BitVec.ofNat 52 m).toNat = m := by
    rw [BitVec.toNat_append, BitVec.toNat_ofNat, Nat.shiftLeft_eq, Nat.or_comm]
    show m % 2 ^ 52 ||| 2 ^ 52 = m
    rw [Nat.or_two_pow_eq_add_of_lt (Nat.mod_lt m (Nat.two_pow_pos 52))]
    omega
  show UnpackedFloat.unpack .binary64 (UInt64.ofBitVec (UnpackedFloat.pack .binary64 _)).toBitVec = _
  rw [pack_eq_packComponents hlow hhigh he' h]
  generalize hb : packComponents .binary64 sign (BitVec.ofNat 11 (e + 1075).toNat) (BitVec.ofNat 52 m) = b
  have hexponent : (unpackExponent b).toNat = (e + 1075).toNat := by
    rw [← hb, unpackExponent_packComponents]
    exact Nat.mod_eq_of_lt (show _ < 2048 by omega)
  have hne (c : BitVec 11) (hc : (e + 1075).toNat ≠ c.toNat) : unpackExponent b ≠ c :=
    fun heq => hc (hexponent.symm.trans (congrArg BitVec.toNat heq))
  have hones : (e + 1075).toNat ≠ (-1#11).toNat := by
    show _ ≠ 2047
    omega
  have hzero : (e + 1075).toNat ≠ (0#11).toNat := by
    show _ ≠ 0
    omega
  obtain ⟨_, hunpack⟩ := exists_unpack_eq (hne _ hones) (hne _ hzero)
  refine hunpack.trans (finite_eq ?_ ?_ (by omega))
  · rw [← hb, unpackSign_packComponents]
  · rw [← hb, unpackMantissa_packComponents]
    exact hmantissa

theorem isInfinite_eq_false {x : Float} {sign : Sign} {m : Nat} {e : Int} {h : 0 < m}
    (hx : x.toModel.unpack = .finite sign m e h) : scale.isInfinite x = false := by
  by_contra hinf
  have hbits : x.toBits &&& 0x7fffffffffffffff = 0x7ff0000000000000 := by
    simpa [scale.isInfinite] using hinf
  have hmod : x.toBits.toNat % 2 ^ 63 = 0x7ff0000000000000 := by
    have hnat := congrArg UInt64.toNat hbits
    rw [UInt64.toNat_and] at hnat
    rw [← Nat.and_two_pow_sub_one_eq_mod]
    exact hnat
  have hexponent : @unpackExponent .binary64 x.toModel.toBits.toBitVec = -1#11 := by
    have hnat : x.toBits.toNat / 2 ^ 52 % 2 ^ 11 = 2047 := by omega
    refine BitVec.eq_of_toNat_eq ?_
    rw [unpackExponent, BitVec.toNat_cast, BitVec.extractLsb_toNat, Nat.shiftRight_eq_div_pow]
    exact hnat
  unfold Float.Model.unpack UnpackedFloat.unpack at hx
  dsimp only at hx
  rw [if_pos hexponent] at hx
  by_cases hmantissa : @unpackMantissa .binary64 x.toModel.toBits.toBitVec = 0#52
  · rw [if_pos hmantissa] at hx
    cases hx
  · rw [if_neg hmantissa] at hx
    cases hx

/-- A number beyond the greatest double is packed as an infinity. -/
theorem isInfinite_pack {sign : Sign} {m : Nat} {e : Int} (he : 971 < e) (h : 0 < m) :
    scale.isInfinite (.ofModel (.pack (.finite sign m e h))) = true := by
  have hpack : UnpackedFloat.pack .binary64 (.finite sign m e h) = packedInfinity .binary64 sign := by
    show (if 2 ^ 11 ≤ (e + 1023 + 52).toNat + 1 then _ else _) = _
    rw [if_pos (by omega)]
  show (UInt64.ofBitVec (UnpackedFloat.pack .binary64 (.finite sign m e h)) &&& _ == _) = true
  rw [hpack]
  cases sign <;> decide

/-! ## Numbers that hardly change -/

/-- A positive normal number from one up that differs from `n` by at most one part in `2 ^ 52`. -/
def UnpackedNear : UnpackedFloat → Nat → Prop
  | .finite .positive m e _, n =>
    (2 ^ 52 ≤ m ∧ m < 2 ^ 53) ∧ (-52 ≤ e ∧ e ≤ 971) ∧
      n * (2 ^ 52 - 1) ≤ m * 2 ^ (e + 52).toNat ∧ m * 2 ^ (e + 52).toNat ≤ n * (2 ^ 52 + 1)
  | _, _ => False

instance : ∀ u n, Decidable (UnpackedNear u n)
  | .finite .positive .., _ => inferInstanceAs (Decidable (_ ∧ _ ∧ _))
  | .finite .negative .., _ => inferInstanceAs (Decidable False)
  | .zero _, _ => inferInstanceAs (Decidable False)
  | .infinity _, _ => inferInstanceAs (Decidable False)
  | .notANumber, _ => inferInstanceAs (Decidable False)

/-- A positive normal double from one up that differs from `n` by at most one part in `2 ^ 52`. -/
def Near (x : Float) (n : Nat) : Prop := UnpackedNear x.toModel.unpack n

instance (x : Float) (n : Nat) : Decidable (Near x n) :=
  inferInstanceAs (Decidable (UnpackedNear _ _))

theorem Near.exists_unpack {x : Float} {n : Nat} (h : Near x n) : ∃ m i hm,
    x.toModel.unpack = .finite .positive m ((i : Nat) - 52) hm ∧ 2 ^ 52 ≤ m ∧ m < 2 ^ 53 ∧ i ≤ 1023 ∧
      n * (2 ^ 52 - 1) ≤ m * 2 ^ i ∧ m * 2 ^ i ≤ n * (2 ^ 52 + 1) := by
  unfold Near at h
  match hx : x.toModel.unpack with
  | .finite .positive m e hm =>
    rw [hx] at h
    obtain ⟨⟨hlow, hhigh⟩, ⟨he, he'⟩, hvalue, hvalue'⟩ := h
    obtain ⟨i, rfl⟩ : ∃ i : Nat, e = i - 52 := ⟨(e + 52).toNat, by omega⟩
    rw [show ((i : Int) - 52 + 52).toNat = i by omega] at hvalue hvalue'
    exact ⟨m, i, hm, rfl, hlow, hhigh, by omega, hvalue, hvalue'⟩
  | .finite .negative .. =>
    rw [hx] at h
    exact h.elim
  | .zero _ =>
    rw [hx] at h
    exact h.elim
  | .infinity _ =>
    rw [hx] at h
    exact h.elim
  | .notANumber =>
    rw [hx] at h
    exact h.elim

theorem near_round {n s j : Nat} (hs : s ≤ 1074) (hlog : 52 ≤ (n * 2 ^ s).log2) (hj : j ≤ 971)
    (hlimit : n < (2 ^ 53 - 1) * 2 ^ j) :
    Near (.ofModel (.pack (roundWithAccuracy .binary64 .positive (n * 2 ^ s) (-s) .exact))) n := by
  obtain ⟨r, k, hpos, hround, hlow, hhigh, hshrunk, hgrown, hk, hcarry⟩ :=
    exists_round .positive (e := -s) hlog (by omega)
  have hn : n ≠ 0 := by
    rintro rfl
    simp at hlog
  have hslog : s ≤ (n * 2 ^ s).log2 := by
    rw [Nat.le_log2 (Nat.mul_ne_zero hn (Nat.ne_of_gt (Nat.two_pow_pos s)))]
    exact Nat.le_mul_of_pos_left _ (Nat.pos_of_ne_zero hn)
  -- The limit is moved to the place of the significand.
  have hkle : k ≤ j + s := hcarry _ (by
    rw [Nat.pow_add, ← Nat.mul_assoc]
    exact Nat.mul_lt_mul_of_pos_right hlimit (Nat.two_pow_pos s))
  unfold Near
  rw [hround, unpack_pack hlow hhigh (by omega) (by omega)]
  refine ⟨⟨hlow, hhigh⟩, ⟨by omega, by omega⟩, ?_⟩
  obtain ⟨a, ha⟩ : ∃ a : Nat, a + s = 52 + k := ⟨52 + k - s, by omega⟩
  have hexponent : (-(s : Int) + k + 52).toNat = a := by omega
  have hvalue : r * 2 ^ a * 2 ^ s = r * 2 ^ k * 2 ^ 52 := by
    rw [Nat.mul_assoc, ← Nat.pow_add, ha, Nat.mul_assoc, ← Nat.pow_add, Nat.add_comm k]
  rw [hexponent]
  constructor
  · refine Nat.le_of_mul_le_mul_right ?_ (Nat.two_pow_pos s)
    rw [hvalue, Nat.mul_right_comm]
    exact hshrunk
  · refine Nat.le_of_mul_le_mul_right ?_ (Nat.two_pow_pos s)
    rw [hvalue, Nat.mul_right_comm n]
    exact hgrown

/-- **An integer of 64 bits as a double.** -/
theorem near_toFloat {n : Nat} (hn : 0 < n) (hfits : n < 2 ^ 64) : Near n.toUInt64.toFloat n := by
  have hnat : n.toUInt64.toNat = n := UInt64.toNat_ofNat_of_lt' hfits
  have hlog : n.log2 < 64 := (Nat.log2_lt (by omega)).2 hfits
  have htarget : Format.binary64.targetExponent (totalExponent n 0) = n.log2 - 52 := by
    rw [targetExponent_eq, totalExponent]
    omega
  have hnormal : UnpackedFloat.normalize .binary64 (n : Int) 0 .positive
      = roundWithAccuracy .binary64 .positive (n * 2 ^ (52 - n.log2)) (-(52 - n.log2 : Nat)) .exact := by
    have hcompare : compare (n : Int) 0 = .gt := Int.compare_eq_gt.2 (by omega)
    have hshift : (0 - ((n.log2 : Int) - 52)).toNat = 52 - n.log2 := by omega
    unfold UnpackedFloat.normalize
    rw [hcompare]
    dsimp only
    rw [Int.toNat_natCast, UnpackedFloat.round, htarget]
    dsimp only
    rw [decreaseExponent, hshift, Nat.shiftLeft_eq, Int.zero_sub]
  have hround := near_round (n := n) (s := 52 - n.log2) (j := 12) (by omega) ?_ (by decide) ?_
  · rw [← hnormal] at hround
    show Near (.ofModel (.pack (UnpackedFloat.normalize .binary64 (n.toUInt64.toNat : Int) 0 .positive))) n
    rw [hnat]
    exact hround
  · rw [Nat.le_log2 (Nat.mul_ne_zero (by omega) (Nat.ne_of_gt (Nat.two_pow_pos _)))]
    calc 2 ^ 52 ≤ 2 ^ n.log2 * 2 ^ (52 - n.log2) := by
          rw [← Nat.pow_add]
          exact Nat.pow_le_pow_right (by decide) (by omega)
      _ ≤ n * 2 ^ (52 - n.log2) := Nat.mul_le_mul_right _ (Nat.log2_self_le (by omega))
  · exact Nat.lt_of_lt_of_le hfits (by decide)

theorem ten_pow_lt : ∀ n < 309, 10 ^ n < (2 ^ 53 - 1) * 2 ^ 971 := by decide +kernel

/-- **A power of ten as a double.** -/
theorem near_powerOfTen {n : Nat} (hn : n ≤ 308) : Near (powerOfTen n) (10 ^ n) := by
  -- Small powers are exact and stand in a table, the others are rounded once.
  rcases Nat.lt_or_ge n 23 with hsmall | hlarge
  · have hexact : ∀ n < 23, Near (powerOfTen n) (10 ^ n) := by decide +kernel
    exact hexact n hsmall
  · have hround := near_round (n := 10 ^ n) (s := 53) (j := 971) (by decide) ?_ (by decide)
      (ten_pow_lt n (by omega))
    · have hslow : powerOfTen n = .ofModel (.ofScientific 1 n) := by
        unfold powerOfTen Float.ofScientific
        rw [dif_neg (by omega)]
        rfl
      have hmul : UnpackedFloat.ofScientific .binary64 1 n
          = roundWithAccuracy .binary64 .positive (10 ^ n * 2 ^ 53) (-(53 : Nat)) .exact := by
        have hfar : ¬ (n : Int) > 2 ^ 11 := by omega
        have hnear : ¬ (n : Int) < -(2 ^ 11 + (1 : Nat).log2) := by omega
        unfold UnpackedFloat.ofScientific
        rw [dif_neg (by decide), if_neg hfar, if_neg hnear, if_pos (by omega)]
        rw [Nat.mul_comm (10 ^ n)]
        rfl
      rw [hslow]
      unfold Float.Model.ofScientific
      rw [hmul]
      exact hround
    · rw [Nat.le_log2 (Nat.ne_of_gt (Nat.mul_pos (Nat.pow_pos (by decide)) (by decide)))]
      calc 2 ^ 52 ≤ 1 * 2 ^ 53 := by decide
        _ ≤ 10 ^ n * 2 ^ 53 := Nat.mul_le_mul_right _ (Nat.pow_pos (by decide))

end DataClient.Number
