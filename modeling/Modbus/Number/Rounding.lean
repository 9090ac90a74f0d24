/-!
# Rounding a quotient

`roundDiv` is the whole number nearest to a quotient, a half going to the even neighbour. Every
number that this library rounds goes through it once: fixed point readings to the precision of a
short float, short floats to three decimals, decimals to the precision of a double float.
-/

namespace Modbus

/-- The whole number nearest to `num / den`; of two equally near ones, the even one. -/
def roundDiv (num den : Nat) : Nat :=
  let quotient := num / den
  let rest := num % den
  if 2 * rest < den then quotient
  else if den < 2 * rest then quotient + 1
  else quotient + quotient % 2

/-- A quotient without rest is not rounded. -/
@[simp] theorem roundDiv_mul_right (n : Nat) {den : Nat} (h : 0 < den) :
    roundDiv (n * den) den = n := by
  simp [roundDiv, Nat.mul_div_cancel n h, h]

@[simp] theorem roundDiv_one (n : Nat) : roundDiv n 1 = n := by
  simpa using roundDiv_mul_right n Nat.one_pos

/-- A quotient is rounded by at most a half. -/
theorem roundDiv_near (num : Nat) {den : Nat} (h : 0 < den) :
    2 * (roundDiv num den * den) ≤ 2 * num + den ∧
      2 * num ≤ 2 * (roundDiv num den * den) + den := by
  have hd := Nat.div_add_mod num den
  have hm := Nat.mod_lt num h
  rw [Nat.mul_comm] at hd
  have he : num / den % 2 = 0 ∨ num / den % 2 = 1 := by omega
  unfold roundDiv
  dsimp only
  split
  · omega
  · have hs : (num / den + 1) * den = num / den * den + den := by rw [Nat.add_mul, Nat.one_mul]
    split
    · omega
    · rcases he with he | he <;> rw [he]
      · rw [Nat.add_zero]; omega
      · omega

/-- A quotient that is rounded by a half is rounded to an even number. -/
theorem roundDiv_even (num : Nat) {den : Nat} (h : 0 < den)
    (htie : 2 * (roundDiv num den * den) = 2 * num + den ∨
      2 * num = 2 * (roundDiv num den * den) + den) :
    roundDiv num den % 2 = 0 := by
  have hd := Nat.div_add_mod num den
  have hm := Nat.mod_lt num h
  rw [Nat.mul_comm] at hd
  have hs : (num / den + 1) * den = num / den * den + den := by rw [Nat.add_mul, Nat.one_mul]
  unfold roundDiv at htie ⊢
  dsimp only at htie ⊢
  split at htie
  · omega
  · split at htie
    · omega
    · split <;> omega

/-- Rounding keeps the order. -/
theorem roundDiv_mono {a b : Nat} (den : Nat) (h : a ≤ b) : roundDiv a den ≤ roundDiv b den := by
  rcases Nat.eq_zero_or_pos den with rfl | hd
  · simp [roundDiv]
    split <;> split <;> omega
  · have hq := Nat.div_le_div_right (c := den) h
    have ha := Nat.div_add_mod a den
    have hb := Nat.div_add_mod b den
    have hma := Nat.mod_lt a hd
    rcases Nat.lt_or_eq_of_le hq with hlt | heq
    · unfold roundDiv
      dsimp only
      repeat' split
      all_goals omega
    · have hr : a % den ≤ b % den := by rw [heq] at ha; omega
      unfold roundDiv
      dsimp only
      rw [heq]
      repeat' split
      all_goals omega

end Modbus
