import DataClient.Number.Shortest
import Mathlib.Algebra.Order.Field.Power
import Mathlib.Algebra.Order.Ring.Rat
import Mathlib.Tactic.FieldSimp
import Mathlib.Tactic.Linarith
import Mathlib.Tactic.Positivity
import Mathlib.Tactic.Ring

/-!
# Bounds of the shortest decimal

The shortest decimal of a positive number is positive, has few digits, and is at most the upper end of
the interval around the number (`Spacing.shortest_bounds`). The digits are found on one of the grids
that are tried; the decimal that was found keeps its value when its trailing zeros are dropped.
-/

set_option autoImplicit false

namespace DataClient.Number

/-! ## Counting digits -/

theorem digitCount_eq_length {n : Nat} (hn : n ≠ 0) : digitCount n = (Nat.toDigits 10 n).length := by
  rw [digitCount, if_neg hn, ← String.length_toList, Nat.toList_repr]

theorem digitCount_pos {n : Nat} (hn : n ≠ 0) : 0 < digitCount n := by
  rw [digitCount_eq_length hn]
  exact List.length_pos_iff.2 Nat.toDigits_ne_nil

theorem lt_ten_pow_digitCount (n : Nat) : n < 10 ^ digitCount n := by
  by_cases hn : n = 0
  · rw [hn]
    exact Nat.pow_pos (by decide)
  · rw [← Nat.length_toDigits_le_iff (by decide) (digitCount_pos hn), digitCount_eq_length hn]

theorem ten_pow_le_of_digitCount {n : Nat} (hn : n ≠ 0) : 10 ^ (digitCount n - 1) ≤ n := by
  have hpos := digitCount_pos hn
  by_contra hlt
  rcases Nat.eq_zero_or_pos (digitCount n - 1) with h | h
  · rw [h] at hlt
    omega
  · have hlength := (Nat.length_toDigits_le_iff (by decide) h).2 (Nat.not_le.1 hlt)
    rw [← digitCount_eq_length hn] at hlength
    omega

/-- **The exponent of the leading digit**: the fraction lies between its power of ten and the next. -/
theorem leadingExponent_bounds {num den : Nat} (hnum : 0 < num) (hden : 0 < den) :
    (10 : ℚ) ^ leadingExponent num den ≤ num / den ∧
      (num : ℚ) / den < 10 ^ (leadingExponent num den + 1) := by
  have hden' : (0 : ℚ) < den := by exact_mod_cast hden
  unfold leadingExponent
  split
  · rename_i hle
    have hq : num / den ≠ 0 := Nat.ne_of_gt (Nat.div_pos hle hden)
    have hcount := digitCount_pos hq
    obtain ⟨k, hk⟩ : ∃ k, digitCount (num / den) = k + 1 := ⟨_, (Nat.succ_pred_eq_of_pos hcount).symm⟩
    have hlow := ten_pow_le_of_digitCount hq
    have hhigh := lt_ten_pow_digitCount (num / den)
    rw [hk] at hlow hhigh ⊢
    have hlow' : 10 ^ k * den ≤ num := (Nat.le_div_iff_mul_le hden).1 hlow
    have hhigh' : num < 10 ^ (k + 1) * den := (Nat.div_lt_iff_lt_mul hden).1 hhigh
    rw [le_div_iff₀ hden', div_lt_iff₀ hden', show ((k + 1 : Nat) : Int) - 1 = k by omega,
      show ((k : Int) + 1) = (k + 1 : Nat) by omega, zpow_natCast, zpow_natCast]
    exact ⟨by exact_mod_cast hlow', by exact_mod_cast hhigh'⟩
  · rename_i hlt
    -- `c + 1` is the quotient rounded up.
    obtain ⟨c, hc⟩ : ∃ c, (den + num - 1) / num = c + 1 :=
      ⟨_, (Nat.succ_pred_eq_of_pos (Nat.div_pos (by omega) hnum)).symm⟩
    have hceil : c * num < den ∧ den ≤ (c + 1) * num := by
      have hdiv := Nat.div_add_mod (den + num - 1) num
      have hmod := Nat.mod_lt (den + num - 1) hnum
      rw [hc, Nat.mul_comm] at hdiv
      rw [Nat.succ_mul] at hdiv ⊢
      omega
    have hc0 : c ≠ 0 := by
      rintro rfl
      omega
    obtain ⟨k, hk⟩ : ∃ k, digitCount c = k + 1 :=
      ⟨_, (Nat.succ_pred_eq_of_pos (digitCount_pos hc0)).symm⟩
    have hlow := ten_pow_le_of_digitCount hc0
    have hhigh := lt_ten_pow_digitCount c
    rw [hc, Nat.add_sub_cancel, hk]
    rw [hk] at hlow hhigh
    have hlow' : 10 ^ k * num < den := Nat.lt_of_le_of_lt (Nat.mul_le_mul_right num hlow) hceil.1
    have hhigh' : den ≤ 10 ^ (k + 1) * num := Nat.le_trans hceil.2 (Nat.mul_le_mul_right num hhigh)
    rw [le_div_iff₀ hden', div_lt_iff₀ hden', show -((k + 1 : Nat) : Int) + 1 = -(k : Nat) by omega,
      zpow_neg, zpow_neg, zpow_natCast, zpow_natCast, inv_mul_le_iff₀ (by positivity), ← div_eq_inv_mul,
      lt_div_iff₀ (by positivity), mul_comm (num : ℚ)]
    exact ⟨by exact_mod_cast hhigh', by exact_mod_cast hlow'⟩

/-! ## Intervals -/

namespace Interval

/-- The points of an interval stand in their order above zero. -/
structure WellFormed (i : Interval) : Prop where
  denominator : 0 < i.denominator
  low : 0 < i.low
  value : i.low ≤ i.value
  high : i.value ≤ i.high

variable {i : Interval}

theorem WellFormed.scaled (h : i.WellFormed) (place : Int) : (i.scaled place).WellFormed := by
  have hpow (p : Nat) : 0 < Nat.pow 10 p := Nat.pow_pos (by decide)
  cases place with
  | ofNat p => exact ⟨Nat.mul_pos h.denominator (hpow p), h.low, h.value, h.high⟩
  | negSucc p =>
    exact ⟨h.denominator, Nat.mul_pos h.low (hpow _), Nat.mul_le_mul_right _ h.value,
      Nat.mul_le_mul_right _ h.high⟩

/-- A grid has ten times as many steps a place further down. -/
theorem scaled_ratio (h : i.WellFormed) (place : Int) :
    ((i.scaled place).value : ℚ) / (i.scaled place).denominator
        = i.value / i.denominator * 10 ^ (-place) ∧
      ((i.scaled place).high : ℚ) / (i.scaled place).denominator
        = i.high / i.denominator * 10 ^ (-place) := by
  have hden : (i.denominator : ℚ) ≠ 0 := by exact_mod_cast Nat.ne_of_gt h.denominator
  cases place with
  | ofNat p =>
    have hcast : ((i.scaled (Int.ofNat p)).denominator : ℚ) = i.denominator * 10 ^ p := by
      show ((i.denominator * 10 ^ p : Nat) : ℚ) = _
      push_cast
      rfl
    rw [hcast, Int.ofNat_eq_natCast, zpow_neg, zpow_natCast]
    constructor <;> field_simp <;> rfl
  | negSucc p =>
    have hcast (n : Nat) : ((n * Nat.pow 10 (p + 1) : Nat) : ℚ) = n * 10 ^ (p + 1) := by
      show ((n * 10 ^ (p + 1) : Nat) : ℚ) = _
      push_cast
      rfl
    rw [Int.neg_negSucc, zpow_natCast]
    constructor
    · show ((i.value * Nat.pow 10 (p + 1) : Nat) : ℚ) / i.denominator = _
      rw [hcast]
      ring
    · show ((i.high * Nat.pow 10 (p + 1) : Nat) : ℚ) / i.denominator = _
      rw [hcast]
      ring

theorem holds_bounds {n : Nat} (h : i.holds n = true) :
    i.low ≤ n * i.denominator ∧ n * i.denominator ≤ i.high := by
  unfold holds at h
  extract_lets x at h
  split at h
  · simpa using h
  · have hlt : i.low < x ∧ x < i.high := by simpa using h
    exact ⟨Nat.le_of_lt hlt.1, Nat.le_of_lt hlt.2⟩

theorem pick?_eq_some {k : Nat} (h : i.pick? = some k) :
    i.holds k = true ∧ k ≤ i.value / i.denominator + 1 := by
  unfold pick? at h
  extract_lets below above at h
  have hboth (k : Nat) (hk : k = below ∨ k = above) : k ≤ below + 1 := by
    rcases hk with rfl | rfl
    · exact Nat.le_succ _
    · exact Nat.le_refl _
  split at h
  · rename_i hbelow habove
    split_ifs at h
    all_goals obtain rfl := Option.some.inj h
    · exact ⟨hbelow, hboth _ (.inl rfl)⟩
    · exact ⟨habove, hboth _ (.inr rfl)⟩
    · exact ⟨hbelow, hboth _ (.inl rfl)⟩
    · exact ⟨habove, hboth _ (.inr rfl)⟩
  · rename_i hbelow _
    obtain rfl := Option.some.inj h
    exact ⟨hbelow, hboth _ (.inl rfl)⟩
  · rename_i _ habove
    obtain rfl := Option.some.inj h
    exact ⟨habove, hboth _ (.inr rfl)⟩
  · cases h

/-- **What the search finds**: a point in the interval, or on the last grid the point below the
value. -/
theorem search_spec (i : Interval) (lead : Int) (tries n : Nat) :
    ∃ j ≤ n + tries, (i.search lead tries n).exponent = lead - j ∧
      (i.search lead tries n).digits
        ≤ (i.scaled (lead - j)).value / (i.scaled (lead - j)).denominator + 1 ∧
      ((i.scaled (lead - j)).holds (i.search lead tries n).digits = true ∨
        j = n + tries ∧ (i.search lead tries n).digits
          = (i.scaled (lead - j)).value / (i.scaled (lead - j)).denominator) := by
  induction tries generalizing n with
  | zero => exact ⟨n, Nat.le_refl n, rfl, Nat.le_succ _, .inr ⟨rfl, rfl⟩⟩
  | succ tries ih =>
    unfold search
    extract_lets place
    split
    · rename_i k hk
      obtain ⟨hholds, hle⟩ := pick?_eq_some hk
      exact ⟨n, Nat.le_add_right n _, rfl, hle, .inl hholds⟩
    · obtain ⟨j, hj, hrest⟩ := ih (n + 1)
      rw [show n + (tries + 1) = n + 1 + tries by omega]
      exact ⟨j, hj, hrest⟩

/-- The grid `j` places below the leading digit has at least `10 ^ j` steps up to the value, and less
than ten times as many. -/
theorem scaled_lead (h : i.WellFormed) {place : Int} {j : Nat}
    (hplace : place = leadingExponent i.value i.denominator - j) :
    10 ^ j * (i.scaled place).denominator ≤ (i.scaled place).value ∧
      (i.scaled place).value < 10 ^ (j + 1) * (i.scaled place).denominator := by
  obtain ⟨hlow, hhigh⟩ := leadingExponent_bounds (Nat.lt_of_lt_of_le h.low h.value) h.denominator
  have hratio := (scaled_ratio h place).1
  have hden : (0 : ℚ) < (i.scaled place).denominator := by exact_mod_cast (h.scaled place).denominator
  have hpos : (0 : ℚ) < 10 ^ (-place) := by positivity
  have hten : (10 : ℚ) ≠ 0 := by norm_num
  constructor
  · have hle : (10 : ℚ) ^ j ≤ (i.scaled place).value / (i.scaled place).denominator := by
      rw [hratio]
      calc (10 : ℚ) ^ j = 10 ^ leadingExponent i.value i.denominator * 10 ^ (-place) := by
            rw [← zpow_add₀ hten, ← zpow_natCast]
            congr 1
            omega
        _ ≤ _ := mul_le_mul_of_nonneg_right hlow hpos.le
    exact_mod_cast (le_div_iff₀ hden).1 hle
  · have hlt : ((i.scaled place).value : ℚ) / (i.scaled place).denominator < 10 ^ (j + 1) := by
      rw [hratio]
      calc _ < (10 : ℚ) ^ (leadingExponent i.value i.denominator + 1) * 10 ^ (-place) :=
            mul_lt_mul_of_pos_right hhigh hpos
        _ = 10 ^ (j + 1) := by
            rw [← zpow_add₀ hten, ← zpow_natCast]
            congr 1
            push_cast
            omega
    exact_mod_cast (div_lt_iff₀ hden).1 hlt

end Interval

/-! ## Decimals -/

/-- The number that a decimal stands for. -/
def Decimal.toRat (d : Decimal) : ℚ := d.digits * 10 ^ d.exponent

/-- **Trailing zeros are dropped without a change of the number.** -/
theorem Decimal.trim_spec (fuel : Nat) (d : Decimal) :
    (d.trim fuel).toRat = d.toRat ∧ (d.trim fuel).digits ≤ d.digits ∧
      (0 < d.digits → 0 < (d.trim fuel).digits) := by
  induction fuel generalizing d with
  | zero => exact ⟨rfl, Nat.le_refl _, id⟩
  | succ fuel ih =>
    unfold trim
    split
    · rename_i h
      obtain ⟨hrat, hle, hpos⟩ := ih ⟨d.digits / 10, d.exponent + 1⟩
      refine ⟨hrat.trans ?_, Nat.le_trans hle (Nat.div_le_self _ _), fun _ => hpos (by dsimp only; omega)⟩
      have hdigits : (d.digits : ℚ) = (d.digits / 10 : Nat) * 10 := by
        exact_mod_cast (Nat.div_mul_cancel (Nat.dvd_of_mod_eq_zero h.1)).symm
      rw [toRat, toRat, hdigits, zpow_add_one₀ (by norm_num)]
      dsimp only
      ring
    · exact ⟨rfl, Nat.le_refl _, id⟩

theorem Decimal.trim_of_mod_ne_zero {d : Decimal} (h : d.digits % 10 ≠ 0) (fuel : Nat) : d.trim fuel = d := by
  cases fuel with
  | zero => rfl
  | succ fuel => exact if_neg fun hzero => h hzero.1

/-- **The decimal that is found is positive, has few digits, and is at most the upper end.** -/
theorem Interval.search_bounds {i : Interval} (h : i.WellFormed) {d : Decimal}
    (hd : i.search (leadingExponent i.value i.denominator) 17 0 = d) :
    0 < d.digits ∧ d.digits < 2 ^ 64 ∧ d.toRat ≤ i.high / i.denominator := by
  obtain ⟨j, hj, hplace, hdigits, hfound⟩ :=
    i.search_spec (leadingExponent i.value i.denominator) 17 0
  rw [hd, ← hplace, hd] at hdigits hfound
  rw [hd] at hplace
  have hscaled := h.scaled d.exponent
  obtain ⟨hlow, hhigh⟩ := scaled_lead h hplace
  have hratio := (scaled_ratio h d.exponent).2
  generalize i.scaled d.exponent = grid at *
  have hden : (0 : ℚ) < grid.denominator := by exact_mod_cast hscaled.denominator
  -- Where no grid has a point in the interval the point below the value is taken, and that is below
  -- the upper end as well.
  have hhigh' : d.digits * grid.denominator ≤ grid.high := by
    rcases hfound with hholds | ⟨-, hbelow⟩
    · exact (holds_bounds hholds).2
    · rw [hbelow]
      exact Nat.le_trans (Nat.div_mul_le_self _ _) hscaled.high
  refine ⟨?_, ?_, ?_⟩
  · rcases hfound with hholds | ⟨-, hbelow⟩
    · refine Nat.pos_of_ne_zero fun hzero => ?_
      have := (holds_bounds hholds).1
      have := hscaled.low
      rw [hzero] at *
      omega
    · rw [hbelow]
      exact Nat.div_pos (Nat.le_trans (Nat.le_mul_of_pos_left _ (Nat.pow_pos (by decide))) hlow)
        hscaled.denominator
  -- The search ends eighteen places below the leading digit.
  · have hfew : grid.value / grid.denominator < 10 ^ (j + 1) :=
      (Nat.div_lt_iff_lt_mul hscaled.denominator).2 hhigh
    have hmost : 10 ^ (j + 1) ≤ 10 ^ 18 := Nat.pow_le_pow_right (by decide) (by omega)
    have hfits : 10 ^ 18 < 2 ^ 64 := by decide
    omega
  · have hsteps : (d.digits : ℚ) ≤ i.high / i.denominator * 10 ^ (-d.exponent) := by
      rw [← hratio, le_div_iff₀ hden]
      exact_mod_cast hhigh'
    calc d.toRat ≤ i.high / i.denominator * 10 ^ (-d.exponent) * 10 ^ d.exponent :=
          mul_le_mul_of_nonneg_right hsteps (by positivity)
      _ = i.high / i.denominator := by
          rw [mul_assoc, ← zpow_add₀ (by norm_num), neg_add_cancel, zpow_zero, mul_one]

namespace Spacing

variable {s : Spacing}

theorem wellFormed_interval (hm : 0 < s.mantissa) : s.interval.WellFormed := by
  have hlow : 0 < 4 * s.mantissa - (if s.lowerHalved then 1 else 2) := by split <;> omega
  have hvalue : 4 * s.mantissa - (if s.lowerHalved then 1 else 2) ≤ 4 * s.mantissa := Nat.sub_le _ _
  have hhigh : 4 * s.mantissa ≤ 4 * s.mantissa + 2 := Nat.le_add_right _ _
  have hpow (e : Nat) : 0 < Nat.pow 2 e := Nat.two_pow_pos e
  unfold interval
  extract_lets low value high closed
  split
  · exact ⟨Nat.succ_pos 3, Nat.mul_pos hlow (hpow _), Nat.mul_le_mul_right _ hvalue, Nat.mul_le_mul_right _ hhigh⟩
  · exact ⟨Nat.mul_pos (by decide) (hpow _), hlow, hvalue, hhigh⟩

/-- The upper end lies half a step above the number. -/
theorem interval_high : (s.interval.high : ℚ) / s.interval.denominator
    = (2 * s.mantissa + 1) / 2 * 2 ^ s.exponent := by
  unfold interval
  extract_lets low value high closed
  split
  · rename_i e he
    rw [he, Int.ofNat_eq_natCast, zpow_natCast]
    have hcast : ((high * Nat.pow 2 e : Nat) : ℚ) = (4 * s.mantissa + 2) * 2 ^ e := by
      show (((4 * s.mantissa + 2) * 2 ^ e : Nat) : ℚ) = _
      push_cast
      rfl
    dsimp only
    rw [hcast]
    push_cast
    ring
  · rename_i e he
    rw [he, zpow_negSucc]
    have hcast : ((4 * Nat.pow 2 (e + 1) : Nat) : ℚ) = 4 * 2 ^ (e + 1) := by
      show ((4 * 2 ^ (e + 1) : Nat) : ℚ) = _
      push_cast
      rfl
    have hhigh : (high : ℚ) = 4 * s.mantissa + 2 := by
      show ((4 * s.mantissa + 2 : Nat) : ℚ) = _
      push_cast
      rfl
    dsimp only
    rw [hcast, hhigh]
    field_simp
    ring

/-- **The shortest decimal is positive, fits 64 bits, and is at most half a step above the number.** -/
theorem shortest_bounds (hm : 0 < s.mantissa) : 0 < s.shortest.digits ∧ s.shortest.digits < 2 ^ 64 ∧
    s.shortest.toRat ≤ (2 * s.mantissa + 1) / 2 * 2 ^ s.exponent := by
  obtain ⟨hpos, hfits, hle⟩ := Interval.search_bounds (wellFormed_interval hm) rfl
  unfold shortest
  extract_lets i d
  obtain ⟨hrat, hdigits, hpos'⟩ := d.trim_spec (digitCount d.digits)
  refine ⟨hpos' hpos, Nat.lt_of_le_of_lt hdigits hfits, ?_⟩
  rw [hrat, ← interval_high]
  exact hle

end Spacing

end DataClient.Number
