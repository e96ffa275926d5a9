import DataClient.Proofs.Number.Products
import DataClient.Proofs.Number.Shortest

/-!
# The digits of a double are scaled back

A finite double has a significand of 53 bits and a bounded exponent (`Parts.ofDouble_finite`). Its
shortest digits, rounded and multiplied by their power of ten, are in the range of the doubles again
(`exists_scale_shortest`): for the five greatest doubles by computation, for all others because both
roundings together are less than the gap to the greatest.
-/

set_option autoImplicit false

namespace DataClient.Number

open Json.Reader (powerOfTen scale clampExponent)

theorem Parts.ofDouble_finite {x : Float} {negative : Bool} {s : Spacing}
    (h : Parts.ofDouble x = .finite negative s) :
    0 < s.mantissa ∧ s.mantissa < 2 ^ 53 ∧ s.exponent ≤ 971 ∧ (s.lowerHalved → s.mantissa = 2 ^ 52) := by
  unfold ofDouble ofBits at h
  extract_lets implied fraction biased sign bias at h
  have hfraction : fraction < 2 ^ 52 := Nat.mod_lt _ (by decide)
  have hbiased : biased < 2 ^ 11 := Nat.mod_lt _ (by decide)
  have hbias : bias = 1023 := rfl
  have himplied : implied = 2 ^ 52 := rfl
  split at h
  · split at h <;> cases h
  · rename_i hfinite
    have hbiased' : biased ≠ 2 ^ 11 - 1 := hfinite
    split at h
    · split at h
      · cases h
      · obtain ⟨-, rfl⟩ := Parts.finite.inj h
        exact ⟨by dsimp only; omega, by dsimp only; omega, by dsimp only; omega, fun h => by cases h⟩
    · obtain ⟨-, rfl⟩ := Parts.finite.inj h
      refine ⟨by dsimp only; omega, by dsimp only; omega, by dsimp only; omega, fun h => ?_⟩
      have hzero : fraction = 0 := by
        simp only [Bool.and_eq_true, decide_eq_true_eq] at h
        exact h.1
      dsimp only
      omega

/-- The exponent of the leading digit is told by the powers of ten on both sides. -/
theorem leadingExponent_eq {num den j : Nat} (hden : 0 < den) (hlow : 10 ^ j * den ≤ num)
    (hhigh : num < 10 ^ (j + 1) * den) : leadingExponent num den = j := by
  have hnum : 0 < num := Nat.lt_of_lt_of_le (Nat.mul_pos (Nat.pow_pos (by decide)) hden) hlow
  obtain ⟨hlow', hhigh'⟩ := leadingExponent_bounds hnum hden
  have hden' : (0 : ℚ) < den := by exact_mod_cast hden
  have hlow'' : (10 : ℚ) ^ (j : Int) ≤ num / den := by
    rw [zpow_natCast, le_div_iff₀ hden']
    exact_mod_cast hlow
  have hhigh'' : (num : ℚ) / den < 10 ^ ((j : Int) + 1) := by
    rw [show (j : Int) + 1 = (j + 1 : Nat) by omega, zpow_natCast, div_lt_iff₀ hden']
    exact_mod_cast hhigh
  have hone : (1 : ℚ) < 10 := by norm_num
  -- Both pairs of powers enclose the fraction, so that neither exponent lies behind the other.
  have hle := (zpow_lt_zpow_iff_right₀ hone).1 (lt_of_le_of_lt hlow' hhigh'')
  have hge := (zpow_lt_zpow_iff_right₀ hone).1 (lt_of_le_of_lt hlow'' hhigh')
  omega

/-- The five greatest doubles, counted from above. -/
def topmost (k : Nat) : Spacing := ⟨2 ^ 53 - 1 - k, 971, false⟩

theorem leadingExponent_topmost : ∀ k < 5,
    leadingExponent (topmost k).interval.value (topmost k).interval.denominator = (308 : Nat) := by
  have hbounds : ∀ k < 5, 0 < (topmost k).interval.denominator ∧
      10 ^ 308 * (topmost k).interval.denominator ≤ (topmost k).interval.value ∧
      (topmost k).interval.value < 10 ^ (308 + 1) * (topmost k).interval.denominator := by decide +kernel
  intro k hk
  obtain ⟨hden, hlow, hhigh⟩ := hbounds k hk
  exact leadingExponent_eq hden hlow hhigh

theorem exists_scale_topmost : ∀ k < 5, ∃ y,
    scale 4 (topmost k).shortest.digits.toUInt64.toFloat (topmost k).shortest.exponent = some y := by
  have hscaled : ∀ k < 5, ((topmost k).interval.search (308 : Nat) 17 0).digits % 10 ≠ 0 ∧
      (scale 4 ((topmost k).interval.search (308 : Nat) 17 0).digits.toUInt64.toFloat
        ((topmost k).interval.search (308 : Nat) 17 0).exponent).isSome = true := by decide +kernel
  intro k hk
  obtain ⟨hdigits, hsome⟩ := hscaled k hk
  have hshortest : (topmost k).shortest = (topmost k).interval.search (308 : Nat) 17 0 := by
    unfold Spacing.shortest
    dsimp only
    rw [leadingExponent_topmost k hk, Decimal.trim_of_mod_ne_zero hdigits]
  rw [hshortest]
  exact Option.isSome_iff_exists.1 hsome

theorem two_mul_le {n e m t : Nat} {q : Int} (hle : (n : ℚ) * 10 ^ (e : Int) ≤ (2 * m + 1) / 2 * 2 ^ q)
    (hq : q ≤ t) : 2 * (n * 10 ^ e) ≤ (2 * m + 1) * 2 ^ t := by
  have hpow : (2 : ℚ) ^ q ≤ 2 ^ (t : Int) := zpow_le_zpow_right₀ (by norm_num) hq
  rw [zpow_natCast] at hle hpow
  have hmul : ((2 : ℚ) * m + 1) / 2 * 2 ^ q ≤ (2 * m + 1) / 2 * 2 ^ t :=
    mul_le_mul_of_nonneg_left hpow (by positivity)
  have hrat : (2 : ℚ) * (n * 10 ^ e) ≤ (2 * m + 1) * 2 ^ t := by linarith
  exact_mod_cast hrat

/-- No greater power of ten is in the range of the doubles. -/
theorem le_of_two_mul_le {n e a t : Nat} (hn : 0 < n) (ha : a < 2 ^ 54) (ht : t ≤ 971)
    (h : 2 * (n * 10 ^ e) ≤ a * 2 ^ t) : e ≤ 308 := by
  by_contra hlarge
  -- `10 ^ 309` is out of the range already.
  obtain ⟨p, hp, hrange⟩ : ∃ p ≤ e, ∀ t < 972, 2 ^ 54 * 2 ^ t < 2 * 10 ^ p :=
    ⟨309, by omega, by decide +kernel⟩
  have hpow : 10 ^ p ≤ n * 10 ^ e :=
    Nat.le_trans (Nat.pow_le_pow_right (by decide) hp) (Nat.le_mul_of_pos_left _ hn)
  have hlt : a * 2 ^ t < 2 * 10 ^ p :=
    Nat.lt_of_le_of_lt (Nat.mul_le_mul_right _ ha.le) (hrange t (by omega))
  omega

/-- What two roundings add is less than the gap to the range. -/
theorem grown_lt {n a t c : Nat} (hn : 2 * n ≤ a * 2 ^ t)
    (ha : a * (2 ^ 52 + 1) ^ 2 < 2 * (2 ^ 53 - 1) * 2 ^ c) :
    n * (2 ^ 52 + 1) ^ 2 < (2 ^ 53 - 1) * 2 ^ (t + c) := by
  refine Nat.lt_of_mul_lt_mul_left (a := 2) ?_
  calc 2 * (n * (2 ^ 52 + 1) ^ 2) = 2 * n * (2 ^ 52 + 1) ^ 2 := by rw [Nat.mul_assoc]
    _ ≤ a * 2 ^ t * (2 ^ 52 + 1) ^ 2 := Nat.mul_le_mul_right _ hn
    _ = a * (2 ^ 52 + 1) ^ 2 * 2 ^ t := Nat.mul_right_comm _ _ _
    _ < 2 * (2 ^ 53 - 1) * 2 ^ c * 2 ^ t := Nat.mul_lt_mul_of_pos_right ha (Nat.two_pow_pos t)
    _ = 2 * ((2 ^ 53 - 1) * 2 ^ (t + c)) := by rw [Nat.pow_add]; ring

/-- The exponent of the shortest digits of a double is that of a double. -/
theorem shortest_exponent_le {x : Float} {negative : Bool} {s : Spacing}
    (h : Parts.ofDouble x = .finite negative s) : s.shortest.exponent ≤ 308 := by
  obtain ⟨hpos, hbits, hexponent, -⟩ := Parts.ofDouble_finite h
  obtain ⟨hdigits, -, hle⟩ := Spacing.shortest_bounds hpos
  rcases Int.lt_or_le s.shortest.exponent 0 with hneg | hnonneg
  · omega
  · obtain ⟨e, he⟩ := Int.eq_ofNat_of_zero_le hnonneg
    rw [Decimal.toRat, he] at hle
    have := le_of_two_mul_le hdigits (by omega) (by decide) (two_mul_le (t := 971) hle hexponent)
    omega

/-- **The digits of a finite double are scaled back to a double.** -/
theorem exists_scale_shortest {x : Float} {negative : Bool} {s : Spacing}
    (h : Parts.ofDouble x = .finite negative s) :
    ∃ y, scale 4 s.shortest.digits.toUInt64.toFloat s.shortest.exponent = some y := by
  obtain ⟨hpos, hbits, hexponent, hhalved⟩ := Parts.ofDouble_finite h
  obtain ⟨hdigits, hfits, hle⟩ := Spacing.shortest_bounds hpos
  by_cases hneg : s.shortest.exponent < 0
  · exact exists_scale_of_neg 4 _ hneg
  obtain ⟨e, he⟩ := Int.eq_ofNat_of_zero_le (Int.not_lt.1 hneg)
  have hsmall := shortest_exponent_le h
  rw [Decimal.toRat, he] at hle
  -- The five greatest doubles leave no room for two roundings; they are checked one by one.
  by_cases hlast : s.exponent = 971 ∧ 2 ^ 53 - 6 < s.mantissa
  · obtain ⟨m, q, halved⟩ := s
    obtain ⟨rfl, hm⟩ := hlast
    obtain rfl : halved = false := by
      by_contra htrue
      have := hhalved (by simpa using htrue)
      dsimp only at this hm
      omega
    have htopmost := exists_scale_topmost (2 ^ 53 - 1 - m) (by dsimp only at hm; omega)
    rwa [topmost, show 2 ^ 53 - 1 - (2 ^ 53 - 1 - m) = m by dsimp only at hbits; omega] at htopmost
  rw [he]
  -- Everywhere else the product stays below the range, even if both factors are rounded up.
  by_cases hlow : s.exponent ≤ 970
  · have hgrown := grown_lt (c := 105) (two_mul_le (t := 970) hle hlow) (by
      have : 2 * s.mantissa + 1 ≤ 2 ^ 54 := by omega
      exact Nat.lt_of_le_of_lt (Nat.mul_le_mul_right _ this) (by decide))
    exact exists_scale hdigits hfits (by omega) (by decide) hgrown 3
  · have hgrown := grown_lt (c := 104) (two_mul_le (t := 971) hle hexponent) (by
      have : 2 * s.mantissa + 1 ≤ 2 * (2 ^ 53 - 6) + 1 := by omega
      exact Nat.lt_of_le_of_lt (Nat.mul_le_mul_right _ this) (by decide))
    exact exists_scale hdigits hfits (by omega) (by decide) hgrown 3

end DataClient.Number
