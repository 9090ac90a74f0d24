import Modbus.Number.Double
import Modbus.Proofs.Number.Rounding

/-!
# Long floats without rounding

A quotient that is a long float is not rounded (`Double.round_exact`): its leading bit is where
`Double.leading` says (`Double.leading_spec`), so the exponent is small enough to leave a whole
significand, and that has room for it. So whole numbers and quotients are exact as long as they have
no more than 53 bits (`Double.div_exact`).
-/

namespace Modbus.Double

/-- The number that a long float denotes. -/
def value (x : Double) : ℚ :=
  x.significand * 2 ^ x.exponent

theorem value_eq_zero_iff {x : Double} : x.value = 0 ↔ x.significand = 0 := by
  rw [value, mul_eq_zero, Nat.cast_eq_zero]
  exact or_iff_left (by positivity)

/-! ### The leading bit -/

/-- The leading bit of a long float is a part of it. -/
theorem two_zpow_le_value {x : Double} (hx : x.significand ≠ 0) :
    (2 : ℚ) ^ (x.exponent + Nat.log2 x.significand) ≤ x.value := by
  rw [value, zpow_add₀ two_ne_zero, zpow_natCast, mul_comm]
  exact mul_le_mul_of_nonneg_right (two_pow_log2_le hx) (by positivity)

/-- A long float is less than two times its leading bit. -/
theorem value_lt_two_zpow (x : Double) :
    x.value < (2 : ℚ) ^ (x.exponent + Nat.log2 x.significand + 1) := by
  rw [value, add_assoc, zpow_add₀ two_ne_zero, zpow_add_one₀ two_ne_zero, zpow_natCast, mul_comm]
  exact mul_lt_mul_of_pos_left (lt_two_pow_log2_mul_two _) (by positivity)

variable {num den : ℕ}

/-- **The leading bit** of a quotient. -/
theorem leading_spec (hnum : 0 < num) (hden : 0 < den) :
    (2 : ℚ) ^ leading num den ≤ num / den ∧ (num : ℚ) / den < 2 ^ (leading num den + 1) := by
  have hden' : (0 : ℚ) < den := Nat.cast_pos.mpr hden
  have hguess : ∀ guess : ℤ, (2 : ℚ) ^ guess ≤ num / den ↔
      den * Nat.pow 2 guess.toNat ≤ num * Nat.pow 2 (-guess).toNat := by
    intro guess
    rw [two_zpow_eq, div_le_div_iff₀ (by positivity) hden', Nat.pow_eq, Nat.pow_eq, mul_comm]
    exact_mod_cast Iff.rfl
  have hlow := two_pow_log2_le hnum.ne'
  have hhigh := lt_two_pow_log2_mul_two num
  have hlow' := two_pow_log2_le hden.ne'
  have hhigh' := lt_two_pow_log2_mul_two den
  rw [leading]
  split_ifs with h
  · refine ⟨(hguess _).mpr h, ?_⟩
    rw [zpow_add_one₀ two_ne_zero, zpow_sub₀ two_ne_zero, zpow_natCast, zpow_natCast,
      div_mul_eq_mul_div, div_lt_div_iff₀ hden' (by positivity)]
    exact mul_lt_mul hhigh hlow' (by positivity) (by positivity)
  · rw [sub_add_cancel]
    refine ⟨?_, not_le.mp (mt (hguess _).mp h)⟩
    rw [zpow_sub_one₀ two_ne_zero, zpow_sub₀ two_ne_zero, zpow_natCast, zpow_natCast,
      ← div_eq_mul_inv, div_div, div_le_div_iff₀ (by positivity) hden']
    exact mul_le_mul hlow hhigh'.le hden'.le (Nat.cast_nonneg num)

/-! ### Quotients -/

/-- The exponent of the last place to which a quotient is rounded. -/
def lastPlace (num den : ℕ) : ℤ :=
  if leading num den - 52 < leastExponent then leastExponent else leading num den - 52

theorem leading_le_lastPlace : leading num den - 52 ≤ lastPlace num den := by
  rw [lastPlace]
  split_ifs <;> omega

theorem lastPlace_le {exponent : ℤ} (hleading : leading num den - 52 ≤ exponent)
    (hleast : leastExponent ≤ exponent) : lastPlace num den ≤ exponent := by
  rw [lastPlace]
  split_ifs
  · exact hleast
  · exact hleading

/-- A quotient that is whole when it is counted in its last place is not rounded. -/
theorem round_of_whole {whole : ℕ} (hnum : 0 < num) (hden : 0 < den)
    (hwhole : (num : ℚ) / den = whole * 2 ^ lastPlace num den) (hfits : whole < 2 * leadingBit)
    (hgreatest : lastPlace num den ≤ greatestExponent) :
    round num den = some ⟨whole, lastPlace num den⟩ := by
  have hden' : (0 : ℚ) < den := Nat.cast_pos.mpr hden
  have hscaled : num * Nat.pow 2 (-lastPlace num den).toNat =
      whole * (den * Nat.pow 2 (lastPlace num den).toNat) := by
    rw [two_zpow_eq, ← mul_div_assoc, div_eq_div_iff hden'.ne' (by positivity)] at hwhole
    rw [Nat.pow_eq, Nat.pow_eq, mul_comm den, ← mul_assoc]
    exact_mod_cast hwhole
  have hpos : 0 < den * Nat.pow 2 (lastPlace num den).toNat :=
    Nat.mul_pos hden (Nat.pow_pos two_pos)
  have hsignificand : roundDiv (num * Nat.pow 2 (-lastPlace num den).toNat)
      (den * Nat.pow 2 (lastPlace num den).toNat) = whole := by
    rw [hscaled, roundDiv_mul_right _ hpos]
  have hround : round num den =
      let rounded : Double :=
        if whole = 2 * leadingBit then ⟨leadingBit, lastPlace num den + 1⟩
        else ⟨whole, lastPlace num den⟩
      if greatestExponent < rounded.exponent then none else some rounded := by
    rw [← hsignificand]
    exact if_neg hnum.ne'
  rw [hround, if_neg hfits.ne]
  exact if_neg (not_lt.mpr hgreatest)

/-- **A quotient that is a long float** is not rounded. -/
theorem round_exact {significand : ℕ} {exponent : ℤ} (hden : 0 < den)
    (hvalue : (num : ℚ) / den = significand * 2 ^ exponent)
    (hsignificand : significand < 2 * leadingBit) (hleast : leastExponent ≤ exponent)
    (hgreatest : exponent ≤ greatestExponent) :
    ∃ x, round num den = some x ∧ x.value = num / den := by
  rcases Nat.eq_zero_or_pos num with rfl | hnum
  · refine ⟨zero, rfl, ?_⟩
    rw [value, zero]
    simp
  obtain ⟨hlow, hhigh⟩ := leading_spec hnum hden
  have hleading : leading num den < exponent + 53 := by
    have hlt : (2 : ℚ) ^ leading num den < 2 ^ (exponent + 53) := by
      rw [hvalue] at hlow
      rw [zpow_add₀ two_ne_zero, mul_comm]
      refine hlow.trans_lt (mul_lt_mul_of_pos_right ?_ (by positivity))
      exact_mod_cast hsignificand
    exact (zpow_lt_zpow_iff_right₀ one_lt_two).mp hlt
  have hle : lastPlace num den ≤ exponent := lastPlace_le (by omega) hleast
  obtain ⟨shift, hshift⟩ := Int.eq_ofNat_of_zero_le (Int.sub_nonneg.mpr hle)
  have hwhole : (num : ℚ) / den = (significand * 2 ^ shift : ℕ) * 2 ^ lastPlace num den := by
    rw [hvalue, show exponent = shift + lastPlace num den by omega, zpow_add₀ two_ne_zero,
      zpow_natCast, Nat.cast_mul, Nat.cast_pow, Nat.cast_two, mul_assoc]
  generalize significand * 2 ^ shift = whole at hwhole
  have hfits : whole < 2 * leadingBit := by
    have hlt : (whole : ℚ) * 2 ^ lastPlace num den < 2 ^ (53 : ℤ) * 2 ^ lastPlace num den := by
      rw [← hwhole, ← zpow_add₀ two_ne_zero]
      refine hhigh.trans_le (zpow_le_zpow_right₀ one_le_two ?_)
      have hroom := @leading_le_lastPlace num den
      omega
    exact_mod_cast lt_of_mul_lt_mul_right hlt (by positivity)
  have hround := round_of_whole hnum hden hwhole hfits (hle.trans hgreatest)
  exact ⟨⟨whole, lastPlace num den⟩, hround, hwhole.symm⟩

/-- **A quotient of long floats that is one** is not rounded. -/
theorem div_exact {x y : Double} {significand : ℕ} {exponent : ℤ} (hy : 0 < y.significand)
    (hvalue : x.value / y.value = significand * 2 ^ exponent)
    (hsignificand : significand < 2 * leadingBit) (hleast : leastExponent ≤ exponent)
    (hgreatest : exponent ≤ greatestExponent) :
    ∃ z, x.div y = some z ∧ z.value = x.value / y.value := by
  have hquotient : ((x.significand * Nat.pow 2 (x.exponent - y.exponent).toNat : ℕ) : ℚ) /
      (y.significand * Nat.pow 2 (-(x.exponent - y.exponent)).toNat : ℕ) = x.value / y.value := by
    rw [value, value, mul_div_mul_comm, ← zpow_sub₀ two_ne_zero,
      two_zpow_eq (x.exponent - y.exponent), Nat.pow_eq, Nat.pow_eq, Nat.cast_mul, Nat.cast_mul,
      mul_div_mul_comm]
  have hden : 0 < y.significand * Nat.pow 2 (-(x.exponent - y.exponent)).toNat :=
    Nat.mul_pos hy (Nat.pow_pos two_pos)
  rw [div, ← hquotient]
  exact round_exact hden (hquotient.trans hvalue) hsignificand hleast hgreatest

end Modbus.Double
