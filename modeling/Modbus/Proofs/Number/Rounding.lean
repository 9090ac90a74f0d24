import Mathlib.Algebra.Order.Field.Rat
import Mathlib.Algebra.Order.Field.Power
import Mathlib.Tactic.Linarith
import Mathlib.Tactic.Positivity
import Mathlib.Tactic.Ring
import Modbus.Number.Rounding

/-!
# What a quotient is rounded to

A whole number is a fraction rounded (`IsRounded`) if it is at most a half away, and even if it is
just a half away. Then no other whole number is nearer (`IsRounded.nearest`), and if one is as near,
this one is even (`IsRounded.even_of_tie`). `roundDiv` finds it (`isRounded_roundDiv`).
-/

namespace Modbus

/-- The whole number is the fraction rounded, a half going to the even neighbour. -/
structure IsRounded (x : ℚ) (n : ℕ) : Prop where
  near : |n - x| ≤ 1 / 2
  even : |n - x| = 1 / 2 → n % 2 = 0

namespace IsRounded

variable {x : ℚ} {n : ℕ}

/-- Another whole number is at least a half away. -/
theorem le_abs_sub (h : IsRounded x n) {k : ℤ} (hne : k ≠ n) : 1 / 2 ≤ |k - x| := by
  have happart : (1 : ℚ) ≤ |(k : ℚ) - n| := by
    have hpos : 0 < |k - n| := abs_pos.mpr (sub_ne_zero.mpr hne)
    exact_mod_cast hpos
  have htriangle := abs_sub_le (k : ℚ) x n
  have hnear := h.near
  rw [abs_sub_comm] at hnear
  linarith

/-- **No whole number is nearer.** -/
theorem nearest (h : IsRounded x n) (k : ℤ) : |n - x| ≤ |k - x| := by
  by_cases hne : k = n
  · rw [hne, Int.cast_natCast]
  · exact h.near.trans (h.le_abs_sub hne)

/-- If another one is as near, this one is even. -/
theorem even_of_tie (h : IsRounded x n) {k : ℤ} (hne : k ≠ n) (htie : |n - x| = |k - x|) :
    n % 2 = 0 :=
  h.even (h.near.antisymm (htie ▸ h.le_abs_sub hne))

/-- A fraction up to a whole number is rounded to no greater one. -/
theorem le_of_le (h : IsRounded x n) {k : ℕ} (hx : x ≤ k) : n ≤ k := by
  have hnear := (abs_le.mp h.near).2
  have hlt : (n : ℚ) < (k + 1 : ℕ) := by
    push_cast
    linarith
  exact Nat.lt_succ_iff.mp (Nat.cast_lt.mp hlt)

/-- A fraction from a whole number on is rounded to no smaller one. -/
theorem ge_of_ge (h : IsRounded x n) {k : ℕ} (hx : k ≤ x) : k ≤ n := by
  have hnear := (abs_le.mp h.near).1
  have hlt : (k : ℚ) < (n + 1 : ℕ) := by
    push_cast
    linarith
  exact Nat.lt_succ_iff.mp (Nat.cast_lt.mp hlt)

/-- A whole number is not rounded. -/
theorem eq_of_natCast {k : ℕ} (h : IsRounded k n) : n = k :=
  (h.le_of_le le_rfl).antisymm (h.ge_of_ge le_rfl)

end IsRounded

/-- **Rounding a quotient** rounds the fraction. -/
theorem isRounded_roundDiv (num : ℕ) {den : ℕ} (h : 0 < den) :
    IsRounded (num / den) (roundDiv num den) := by
  have hden : (0 : ℚ) < den := Nat.cast_pos.mpr h
  have hx : (num : ℚ) / den * den = num := div_mul_cancel₀ _ hden.ne'
  obtain ⟨habove, hbelow⟩ := roundDiv_near num h
  have heven := roundDiv_even num h
  generalize roundDiv num den = whole at habove hbelow heven
  generalize (num : ℚ) / den = x at hx
  -- whole numbers are compared in units of the denominator
  have habove' : 2 * (whole * den : ℚ) ≤ 2 * num + den := by exact_mod_cast habove
  have hbelow' : 2 * (num : ℚ) ≤ 2 * (whole * den) + den := by exact_mod_cast hbelow
  rw [← hx] at habove' hbelow'
  refine ⟨abs_le.mpr ⟨?_, ?_⟩, fun htie => heven ?_⟩
  · exact le_of_mul_le_mul_right (by linarith) hden
  · exact le_of_mul_le_mul_right (by linarith) hden
  · rcases (abs_eq (by norm_num)).mp htie with hhalf | hhalf
    · left
      have hunits : 2 * (whole * den : ℚ) = 2 * num + den := by
        rw [← hx, eq_add_of_sub_eq hhalf]
        ring
      exact_mod_cast hunits
    · right
      have hunits : 2 * (num : ℚ) = 2 * (whole * den) + den := by
        rw [← hx, eq_add_of_sub_eq hhalf]
        ring
      exact_mod_cast hunits

/-- A power of two as a quotient of whole numbers. -/
theorem two_zpow_eq (e : ℤ) : (2 : ℚ) ^ e = (2 ^ e.toNat : ℕ) / (2 ^ (-e).toNat : ℕ) := by
  rcases le_total 0 e with h | h
  · obtain ⟨n, rfl⟩ := Int.eq_ofNat_of_zero_le h
    simp
  · obtain ⟨n, hn⟩ := Int.eq_ofNat_of_zero_le (Int.neg_nonneg.mpr h)
    obtain rfl : e = -n := by omega
    simp

/-! ### The leading bit -/

section Log2

variable {n : ℕ}

theorem two_pow_log2_le (h : n ≠ 0) : (2 : ℚ) ^ Nat.log2 n ≤ n := by
  exact_mod_cast Nat.log2_self_le h

theorem lt_two_pow_log2_mul_two (n : ℕ) : (n : ℚ) < 2 ^ Nat.log2 n * 2 := by
  rw [← pow_succ]
  exact_mod_cast Nat.lt_log2_self

end Log2

end Modbus
