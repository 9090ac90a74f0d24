import Modbus.Proofs.Number.Exact
import Modbus.Proofs.Number.Nearest
import Modbus.Proofs.Register.Interpretation

/-!
# Fixed point readings

A reading in the format for numbers with a fixed binary point (`Descriptor.ReadsFixedPoint`) is a
whole number divided by a power of two. The division of long floats is exact
(`Double.exists_quotient`), so the only rounding is that of casting the quotient, and the value is
the nearest short float (`Value.isNearest_fixedPoint`). The text of the value is rounded once more,
to thousandths (`Single.isRounded_thousandths`), which are written with three places
(`Single.placesText_eq`).

`Measurement.float_rounds_fixed_point` puts this together.
-/

namespace Modbus

namespace Double

/-- A whole number of no more than 53 bits is a long float. -/
theorem round_natCast {n : ℕ} (h : n < 2 * leadingBit) :
    ∃ x, round n 1 = some x ∧ x.value = n := by
  have hvalue : (n : ℚ) / (1 : ℕ) = n * 2 ^ (0 : ℤ) := by simp
  obtain ⟨x, hx, hequal⟩ := round_exact one_pos hvalue h (by decide) (by decide)
  refine ⟨x, hx, ?_⟩
  rw [hequal, Nat.cast_one, div_one]

/-- **Dividing a reading** by a power of two is exact. -/
theorem exists_quotient {n places : ℕ} (hn : n < 2 ^ 32) (hplaces : places < 32) :
    ∃ x y z, round n 1 = some x ∧ round (2 ^ places) 1 = some y ∧ x.div y = some z ∧
      z.value = n / 2 ^ places := by
  have hpower : 2 ^ places < 2 ^ 32 := Nat.pow_lt_pow_right one_lt_two hplaces
  have hroom : 2 ^ 32 < 2 * leadingBit := by decide
  obtain ⟨x, hx, hxvalue⟩ := round_natCast (hn.trans hroom)
  obtain ⟨y, hy, hyvalue⟩ := round_natCast (hpower.trans hroom)
  have hpos : 0 < y.significand := by
    rw [Nat.pos_iff_ne_zero]
    intro hzero
    rw [value, hzero, Nat.cast_zero, zero_mul, eq_comm, Nat.cast_pow] at hyvalue
    exact absurd hyvalue (by positivity)
  have hquotient : x.value / y.value = n * 2 ^ (-places : ℤ) := by
    rw [hxvalue, hyvalue, zpow_neg, zpow_natCast, div_eq_mul_inv]
    push_cast
    rfl
  obtain ⟨z, hz, hzvalue⟩ := div_exact hpos hquotient (hn.trans hroom)
    (by rw [leastExponent]; omega) (by rw [greatestExponent]; omega)
  refine ⟨x, y, z, hx, hy, hz, ?_⟩
  rw [hzvalue, hxvalue, hyvalue]
  push_cast
  rfl

end Double

namespace Single

/-- **Thousandths** are rounded once. -/
theorem isRounded_thousandths {bits : UInt32} (hpositive : bits.toNat < 2 ^ 31) :
    IsRounded (1000 * value bits) (thousandths bits) := by
  have hpos : 0 < Nat.pow 2 (-exponent bits).toNat := Nat.pow_pos two_pos
  have hvalue : 1000 * value bits =
      (1000 * significand bits * Nat.pow 2 (exponent bits).toNat : ℕ) /
        (Nat.pow 2 (-exponent bits).toNat : ℕ) := by
    rw [value_of_lt hpositive, two_zpow_eq, Nat.pow_eq, Nat.pow_eq]
    push_cast
    ring
  rw [hvalue, thousandths]
  exact isRounded_roundDiv _ hpos

/-- The last three digits of a number. -/
def lastDigits (n : ℕ) : List Char :=
  [Nat.digitChar (n / 100 % 10), Nat.digitChar (n / 10 % 10), Nat.digitChar (n % 10)]

theorem fill_toDigits {n : ℕ} (h : n < 1000) :
    List.replicate (3 - (Nat.toDigits 10 n).length) '0' ++ Nat.toDigits 10 n = lastDigits n := by
  have hdigit : ∀ {m : ℕ}, m < 10 → Nat.toDigits 10 m = [Nat.digitChar m] :=
    Nat.toDigits_of_lt_base
  have hmore : ∀ {m : ℕ}, 10 ≤ m →
      Nat.toDigits 10 m = Nat.toDigits 10 (m / 10) ++ [Nat.digitChar (m % 10)] :=
    Nat.toDigits_of_base_le (by decide)
  rw [lastDigits]
  rcases Nat.lt_or_ge n 10 with hone | hone
  · rw [hdigit hone, Nat.div_eq_of_lt hone, Nat.div_eq_of_lt (by omega), Nat.mod_eq_of_lt hone]
    rfl
  · rcases Nat.lt_or_ge n 100 with htwo | htwo
    · rw [hmore hone, hdigit (by omega), Nat.div_eq_of_lt htwo,
        Nat.mod_eq_of_lt (a := n / 10) (by omega)]
      rfl
    · rw [hmore hone, hmore (by omega), Nat.div_div_eq_div_mul, hdigit (by omega),
        Nat.mod_eq_of_lt (a := n / 100) (by omega)]
      rfl

/-- **Thousandths as a decimal** have three places. -/
theorem placesText_eq (n : ℕ) :
    placesText n = toString (n / 1000) ++ "." ++ String.ofList (lastDigits n) := by
  have hlast : lastDigits (n % 1000) = lastDigits n := by
    rw [lastDigits, lastDigits, show n % 1000 / 100 % 10 = n / 100 % 10 by omega,
      show n % 1000 / 10 % 10 = n / 10 % 10 by omega, Nat.mod_mod_of_dvd n (by decide)]
  have hdigits : toString (n % 1000) = String.ofList (Nat.toDigits 10 (n % 1000)) :=
    Nat.toString_eq_ofList_toDigits
  rw [placesText, hdigits, String.length_ofList, ← hlast,
    ← fill_toDigits (Nat.mod_lt n (by decide)), String.ofList_append, String.append_assoc]

end Single

/-! ### From a number to a short float -/

namespace Value

variable {precision : UInt16}

/-- **A fixed point number is a quotient that is cast**, and the quotient is exact. -/
theorem exists_fixedPoint_eq (n : UInt32) (hprecision : precision.toNat < 32) :
    ∃ x y z, Double.round n.toNat 1 = some x ∧ Double.round (2 ^ precision.toNat) 1 = some y ∧
      x.div y = some z ∧ z.value = n.toNat / 2 ^ precision.toNat ∧
        fixedPoint n precision = Single.ofDouble z := by
  obtain ⟨x, y, z, hx, hy, hz, hvalue⟩ := Double.exists_quotient n.toNat_lt hprecision
  have hdivisor : (1 <<< precision.toUInt32 : UInt32).toNat = 2 ^ precision.toNat := by
    have hpower : 2 ^ precision.toNat < 2 ^ 32 := Nat.pow_lt_pow_right one_lt_two hprecision
    rw [UInt32.toNat_shiftLeft, UInt16.toNat_toUInt32, Nat.mod_eq_of_lt hprecision,
      Nat.shiftLeft_eq, UInt32.toNat_one, one_mul, Nat.mod_eq_of_lt hpower]
  refine ⟨x, y, z, hx, hy, hz, hvalue, ?_⟩
  rw [fixedPoint, hdivisor, hx, hy]
  show (x.div y).elim Single.infinity Single.ofDouble = _
  rw [hz, Option.elim_some]

/-- The result is neither negative nor infinite nor a number that is too small for 24 bits. -/
theorem fixedPoint_bounds (n : UInt32) (hprecision : precision.toNat < 32) :
    (fixedPoint n precision = 0 ∨ Single.hiddenBit ≤ (fixedPoint n precision).toNat) ∧
      (fixedPoint n precision).toNat < Single.infinity.toNat := by
  obtain ⟨x, y, z, -, -, -, hvalue, hcast⟩ := exists_fixedPoint_eq n hprecision
  rw [hcast]
  rcases Nat.eq_zero_or_pos n.toNat with hzero | hpos
  · rw [hzero, Nat.cast_zero, zero_div, Double.value_eq_zero_iff] at hvalue
    rw [Single.ofDouble_of_eq_zero hvalue]
    exact ⟨.inl rfl, by decide⟩
  · have hlow : (2 : ℚ) ^ (-126 : ℤ) ≤ z.value := by
      have hone : (1 : ℚ) ≤ n.toNat := Nat.one_le_cast.mpr hpos
      calc (2 : ℚ) ^ (-126 : ℤ) ≤ 2 ^ (-precision.toNat : ℤ) :=
            zpow_le_zpow_right₀ one_le_two (by omega)
        _ = 1 / 2 ^ precision.toNat := by rw [zpow_neg, zpow_natCast, one_div]
        _ ≤ z.value := by
            rw [hvalue]
            gcongr
    have hhigh : z.value < 2 ^ (127 : ℤ) := by
      have hn : (n.toNat : ℚ) < 2 ^ 32 := by exact_mod_cast n.toNat_lt
      have hdivided : (n.toNat : ℚ) / 2 ^ precision.toNat ≤ n.toNat :=
        div_le_self (Nat.cast_nonneg _) (one_le_pow₀ one_le_two)
      rw [hvalue]
      exact (hdivided.trans_lt hn).trans (by norm_num)
    obtain ⟨hnormal, hfinite⟩ := Single.ofDouble_bounds hlow hhigh
    exact ⟨.inr hnormal, hfinite⟩

theorem fixedPoint_ne_infinity (n : UInt32) (hprecision : precision.toNat < 32) :
    fixedPoint n precision ≠ Single.infinity := by
  intro h
  have hlt := (fixedPoint_bounds n hprecision).2
  rw [h] at hlt
  exact lt_irrefl _ hlt

/-- **A fixed point number** is rounded to the nearest short float. -/
theorem isNearest_fixedPoint (n : UInt32) (hprecision : precision.toNat < 32) :
    Single.IsNearest (n.toNat / 2 ^ precision.toNat) (fixedPoint n precision) := by
  have hfinite := fixedPoint_ne_infinity n hprecision
  obtain ⟨x, y, z, -, -, -, hvalue, hcast⟩ := exists_fixedPoint_eq n hprecision
  rw [hcast] at hfinite ⊢
  rw [← hvalue]
  exact Single.isNearest_ofDouble hfinite

/-- **There is room for 24 bits.** -/
theorem value_fixedPoint_of_lt {n : UInt32} (hprecision : precision.toNat < 32)
    (hlt : n.toNat < 2 ^ 24) :
    Single.value (fixedPoint n precision) = n.toNat / 2 ^ precision.toNat := by
  have hfinite := fixedPoint_ne_infinity n hprecision
  obtain ⟨x, y, z, -, -, -, hvalue, hcast⟩ := exists_fixedPoint_eq n hprecision
  have hshort : z.value = n.toNat * 2 ^ (-precision.toNat : ℤ) := by
    rw [hvalue, zpow_neg, zpow_natCast, div_eq_mul_inv]
  rw [hcast] at hfinite ⊢
  rw [← hvalue]
  exact Single.value_ofDouble_of_short hshort hlt (by rw [Single.leastExponent]; omega) hfinite

/-- **The order is kept.** -/
theorem value_fixedPoint_mono {n n' : UInt32} (hprecision : precision.toNat < 32) (hle : n ≤ n') :
    Single.value (fixedPoint n precision) ≤ Single.value (fixedPoint n' precision) := by
  rcases eq_or_ne n n' with rfl | hne
  · exact le_rfl
  · refine (isNearest_fixedPoint n hprecision).value_le (isNearest_fixedPoint n' hprecision) ?_
    have hlt : n.toNat < n'.toNat :=
      (UInt32.le_iff_toNat_le.mp hle).lt_of_ne fun heq => hne (UInt32.toNat_inj.mp heq)
    gcongr

end Value

/-! ### Readings -/

/-- The words are those of a fixed point number: one or two of them, and with a precision that is
allowed. -/
structure Descriptor.ReadsFixedPoint (descriptor : Descriptor) (words : List UInt16) : Prop where
  format_eq : descriptor.format = .float
  length_eq : words.length = descriptor.length.toNat
  one_or_two : words.length = 1 ∨ words.length = 2
  precision_lt : descriptor.precision.toNat < 32

namespace Value

variable {descriptor : Descriptor} {words : List UInt16} {bits : UInt32}

theorem ofWords_of_float (hformat : descriptor.format = .float)
    (hlength : words.length = descriptor.length.toNat) :
    ofWords descriptor words =
      if 32 ≤ descriptor.precision.toNat then
        .error (.precisionOutOfRange descriptor.precision)
      else
        compose words >>= fun n => .ok (.float (fixedPoint n descriptor.precision)) := by
  rw [ofWords, if_neg (not_not.mpr hlength), hformat]
  rfl

/-- **Which words give a short float**, and which one. -/
theorem ofWords_eq_float_iff :
    ofWords descriptor words = .ok (.float bits) ↔
      descriptor.ReadsFixedPoint words ∧
        bits = fixedPoint (UInt32.ofNat (numberOf words)) descriptor.precision := by
  constructor
  · intro h
    have hformat : descriptor.format = .float := (Descriptor.format_eq_of_ofWords h).symm
    have hlength : words.length = descriptor.length.toNat := by
      by_contra hne
      rw [ofWords, if_pos hne] at h
      cases h
    rw [ofWords_of_float hformat hlength] at h
    split_ifs at h with hprecision
    obtain ⟨n, hcompose, hbits⟩ := bind_eq_ok_iff.mp h
    have hcount := exists_compose_iff.mp ⟨n, hcompose⟩
    rw [compose_eq hcount] at hcompose
    cases hcompose
    cases hbits
    exact ⟨⟨hformat, hlength, hcount, not_le.mp hprecision⟩, rfl⟩
  · rintro ⟨⟨hformat, hlength, hcount, hprecision⟩, rfl⟩
    rw [ofWords_of_float hformat hlength, if_neg (not_le.mpr hprecision), compose_eq hcount]
    rfl

end Value

namespace Measurement

/-- A measurement is a short float if the words make a fixed point number. -/
theorem ofWords_eq_float_iff {descriptor : Descriptor} {words : List UInt16} {time : UInt32}
    {bits : UInt32} :
    ofWords descriptor words time = .ok { time, value := .float bits } ↔
      descriptor.ReadsFixedPoint words ∧
        bits = Value.fixedPoint (UInt32.ofNat (Value.numberOf words)) descriptor.precision := by
  rw [ofWords_eq_ok_iff, Value.ofWords_eq_float_iff]

/-- **Fixed point readings are rounded correctly.** Let `n` be the number that one or two words
spell, and `q` this number divided by two to the power of the precision. The value is the short
float nearest to `q`, a tie going to the even one. It is cast from the quotient of long floats,
which is exactly `q`. It is zero or a positive number of 24 bits, neither infinite nor too small. If
`n` has no more than 24 bits, it is `q` itself. A greater reading does not give a smaller value. The
text is the exact value rounded to thousandths, a half going to the even digit, with three places
behind the point. -/
theorem float_rounds_fixed_point {descriptor : Descriptor} {words : List UInt16}
    (h : descriptor.ReadsFixedPoint words) (time : UInt32) :
    let n := Value.numberOf words
    let q : ℚ := n / 2 ^ descriptor.precision.toNat
    ∃ bits, ofWords descriptor words time = .ok { time, value := .float bits } ∧
      Single.IsNearest q bits ∧
      (∃ x y z, Double.round n 1 = some x ∧
        Double.round (2 ^ descriptor.precision.toNat) 1 = some y ∧ x.div y = some z ∧
          z.value = q ∧ bits = Single.ofDouble z) ∧
      ((bits = 0 ∨ Single.hiddenBit ≤ bits.toNat) ∧ bits.toNat < 255 * Single.hiddenBit) ∧
      (n < 2 ^ 24 → Single.value bits = q) ∧
      (∀ (descriptor' : Descriptor) (words' : List UInt16) (time' bits' : UInt32),
        descriptor'.precision = descriptor.precision → n ≤ Value.numberOf words' →
          ofWords descriptor' words' time' = .ok { time := time', value := .float bits' } →
            Single.value bits ≤ Single.value bits') ∧
      ∃ thousandths : ℕ, IsRounded (1000 * Single.value bits) thousandths ∧
        (n < 2 ^ 24 → IsRounded (1000 * q) thousandths) ∧
        (Value.float bits).text = toString (thousandths / 1000) ++ "." ++
          String.ofList (Single.lastDigits thousandths) := by
  intro n q
  have hn : n < 2 ^ 32 := Value.numberOf_lt h.one_or_two
  have hword : (UInt32.ofNat n).toNat = n := UInt32.toNat_ofNat_of_lt' hn
  let bits := Value.fixedPoint (UInt32.ofNat n) descriptor.precision
  obtain ⟨hnormal, hbound⟩ := Value.fixedPoint_bounds (UInt32.ofNat n) h.precision_lt
  obtain ⟨x, y, z, hx, hy, hz, hvalue, hcast⟩ :=
    Value.exists_fixedPoint_eq (UInt32.ofNat n) h.precision_lt
  have hnearest := Value.isNearest_fixedPoint (UInt32.ofNat n) h.precision_lt
  have hrounded : IsRounded (1000 * Single.value bits) (Single.thousandths bits) :=
    Single.isRounded_thousandths (Single.lt_of_lt_infinity hbound)
  have hexact : n < 2 ^ 24 → Single.value bits = q := by
    intro hlt
    rw [Value.value_fixedPoint_of_lt h.precision_lt (hword.trans_lt hlt), hword]
  rw [hword] at hx hvalue hnearest
  rw [Single.infinity_toNat] at hbound
  refine ⟨bits, ofWords_eq_float_iff.mpr ⟨h, rfl⟩, hnearest, ⟨x, y, z, hx, hy, hz, hvalue, hcast⟩,
    ⟨hnormal, hbound⟩, hexact, fun descriptor' words' time' bits' hprecision hle hok => ?_,
    Single.thousandths bits, hrounded, fun hlt => hexact hlt ▸ hrounded, Single.placesText_eq _⟩
  obtain ⟨h', rfl⟩ := ofWords_eq_float_iff.mp hok
  rw [hprecision]
  refine Value.value_fixedPoint_mono h.precision_lt (UInt32.le_iff_toNat_le.mpr ?_)
  rw [hword, UInt32.toNat_ofNat_of_lt' (Value.numberOf_lt h'.one_or_two)]
  exact hle

/-- A reading of 25 bits that is as near to one as to the next short float. -/
theorem float_rounds_fixed_point_tie :
    let descriptor : Descriptor := {
      start := 0, length := 2, name := "ratio", format := .float, precision := 24 }
    let words : List UInt16 := [0x0100, 0x0001]
    descriptor.ReadsFixedPoint words ∧
      ofWords descriptor words 7 = .ok { time := 7, value := .float 0x3F800000 } ∧
      Single.IsNearest ((2 ^ 24 + 1) / 2 ^ 24) 0x3F800000 ∧
      (Value.float 0x3F800000).text = "1.000" := by
  intro descriptor words
  have hreads : descriptor.ReadsFixedPoint words := ⟨rfl, rfl, .inr rfl, by decide⟩
  have hok : ofWords descriptor words 7 = .ok { time := 7, value := .float 0x3F800000 } := by
    decide +kernel
  obtain ⟨bits, hbits, hnearest, -⟩ := float_rounds_fixed_point hreads 7
  cases hok.symm.trans hbits
  have hnumber : Value.numberOf words = 2 ^ 24 + 1 := rfl
  have hprecision : descriptor.precision.toNat = 24 := rfl
  rw [hnumber, hprecision] at hnearest
  refine ⟨hreads, hok, ?_, by decide +kernel⟩
  exact_mod_cast hnearest

end Measurement

end Modbus
