import Modbus.Number.Single
import Modbus.Proofs.Number.Exact

/-!
# The nearest short float

Short floats in one binade and above it are whole multiples of the same power of two, and those
below it are too small to matter. So a number is rounded to a short float (`IsNearest`) if it is
rounded to a multiple of the last place of its binade (`isNearest_of_isRounded`). No binade has a
last place below that of the least numbers, of which all short floats are multiples.

Casting a long float does so (`isNearest_ofDouble`), unless the result is infinity. What is packed
may carry into the exponent, and still denotes the multiple that was rounded to (`value_pack`). A
long float that is a short one is not changed (`value_ofDouble_of_short`).
-/

namespace Modbus.Single

/-! ### What bits denote -/

/-- The bits without the sign. -/
def magnitude (bits : UInt32) : UInt32 :=
  UInt32.ofNat (bits.toNat % 2 ^ 31)

/-- The number that the bits of a finite short float denote. The first bit is the sign. -/
def value (bits : UInt32) : ℚ :=
  (if bits.toNat < 2 ^ 31 then 1 else -1) *
    (significand (magnitude bits) * 2 ^ exponent (magnitude bits))

/-- The bits denote a number: the field of the exponent is not full. -/
def IsFinite (bits : UInt32) : Prop :=
  bits.toNat / hiddenBit % 256 < 255

/-- No short float is nearer to the number. If another one is as near, the significand of this one
is even. -/
structure IsNearest (q : ℚ) (bits : UInt32) : Prop where
  finite : IsFinite bits
  near : ∀ other, IsFinite other → |value bits - q| ≤ |value other - q|
  even : ∀ other, IsFinite other → value other ≠ value bits →
    |value bits - q| = |value other - q| → significand (magnitude bits) % 2 = 0

variable {bits : UInt32} {q : ℚ}

theorem magnitude_of_lt (h : bits.toNat < 2 ^ 31) : magnitude bits = bits := by
  rw [magnitude, Nat.mod_eq_of_lt h, UInt32.ofNat_toNat]

theorem value_of_lt (h : bits.toNat < 2 ^ 31) :
    value bits = significand bits * 2 ^ exponent bits := by
  rw [value, if_pos h, one_mul, magnitude_of_lt h]

theorem significand_lt (bits : UInt32) : significand (magnitude bits) < 2 * hiddenBit := by
  have hlt : (magnitude bits).toNat < 2 ^ 31 := by
    rw [magnitude, UInt32.toNat_ofNat']
    omega
  rw [significand, hiddenBit]
  split_ifs <;> omega

theorem leastExponent_le_exponent (bits : UInt32) : leastExponent ≤ exponent bits := by
  rw [exponent, leastExponent]
  generalize bits.toNat / hiddenBit = field
  split_ifs <;> omega

/-- A short float is a multiple of a power of two, or less than any in a binade above it. There is
no binade below that of the least numbers. -/
theorem value_cases (bits : UInt32) (place : ℤ) :
    (∃ k : ℤ, value bits = k * 2 ^ place) ∨
      leastExponent < place ∧ value bits < hiddenBit * 2 ^ place := by
  rw [value]
  have hlt := significand_lt bits
  have hleast := leastExponent_le_exponent (magnitude bits)
  generalize significand (magnitude bits) = digits at hlt
  generalize exponent (magnitude bits) = least at hleast
  rcases le_or_gt place least with hle | hgt
  · left
    obtain ⟨shift, hshift⟩ := Int.eq_ofNat_of_zero_le (Int.sub_nonneg.mpr hle)
    refine ⟨(if bits.toNat < 2 ^ 31 then 1 else -1) * (digits * 2 ^ shift), ?_⟩
    rw [show least = shift + place by omega, zpow_add₀ two_ne_zero, zpow_natCast]
    push_cast
    ring
  · refine .inr ⟨hleast.trans_lt hgt, ?_⟩
    have hnonneg : (0 : ℚ) ≤ digits * 2 ^ least := by positivity
    calc (if bits.toNat < 2 ^ 31 then 1 else -1) * ((digits : ℚ) * 2 ^ least)
        ≤ digits * 2 ^ least := by split_ifs <;> linarith
      _ < (2 * hiddenBit : ℕ) * 2 ^ least :=
        mul_lt_mul_of_pos_right (Nat.cast_lt.mpr hlt) (by positivity)
      _ = hiddenBit * 2 ^ (least + 1) := by
        rw [zpow_add_one₀ two_ne_zero]
        push_cast
        ring
      _ ≤ hiddenBit * 2 ^ place :=
        mul_le_mul_of_nonneg_left (zpow_le_zpow_right₀ one_le_two hgt) (Nat.cast_nonneg _)

/-- **Rounding to the last place** of the binade of a number is rounding it to a short float. -/
theorem isNearest_of_isRounded {place : ℤ} {multiple : ℕ} (hfinite : IsFinite bits)
    (hvalue : value bits = multiple * 2 ^ place)
    (heven : multiple % 2 = 0 → significand (magnitude bits) % 2 = 0)
    (hrounded : IsRounded (q / 2 ^ place) multiple)
    (hbinade : leastExponent < place → hiddenBit * 2 ^ place ≤ q) :
    IsNearest q bits := by
  have hplace : (0 : ℚ) < 2 ^ place := by positivity
  -- distances are counted in the last place
  have hdist : ∀ k : ℤ, |k * 2 ^ place - q| = |k - q / 2 ^ place| * 2 ^ place := by
    intro k
    rw [← abs_of_pos hplace, ← abs_mul, abs_of_pos hplace, sub_mul, div_mul_cancel₀ q hplace.ne']
  have hself : |value bits - q| = |multiple - q / 2 ^ place| * 2 ^ place := by
    rw [hvalue]
    exact_mod_cast hdist multiple
  have hbelow : ∀ other, leastExponent < place ∧ value other < hiddenBit * 2 ^ place →
      |value bits - q| < |value other - q| := by
    rintro other ⟨hplace', hlt⟩
    replace hbinade := hbinade hplace'
    have hnear : |value bits - q| ≤ |(hiddenBit : ℤ) * 2 ^ place - q| := by
      rw [hself, hdist]
      exact mul_le_mul_of_nonneg_right (hrounded.nearest hiddenBit) hplace.le
    rw [Int.cast_natCast, abs_sub_comm _ q, abs_sub_comm _ q,
      abs_of_nonneg (sub_nonneg.mpr hbinade)] at hnear
    rw [abs_sub_comm, abs_sub_comm _ q, abs_of_nonneg (a := q - value other) (by linarith)]
    linarith
  refine ⟨hfinite, fun other _ => ?_, fun other _ hne htie => ?_⟩
  · rcases value_cases other place with ⟨k, hk⟩ | hlt
    · rw [hself, hk, hdist]
      exact mul_le_mul_of_nonneg_right (hrounded.nearest k) hplace.le
    · exact (hbelow other hlt).le
  · rcases value_cases other place with ⟨k, hk⟩ | hlt
    · rw [hself, hk, hdist] at htie
      refine heven (hrounded.even_of_tie (k := k) ?_ (mul_right_cancel₀ hplace.ne' htie))
      rintro rfl
      exact hne (hk.trans hvalue.symm)
    · exact absurd htie (hbelow other hlt).ne

/-- What is nearest to a greater number is not less. -/
theorem IsNearest.value_le {q' : ℚ} {bits' : UInt32} (h : IsNearest q bits)
    (h' : IsNearest q' bits') (hlt : q < q') : value bits ≤ value bits' := by
  by_contra hgt
  have hnear := sq_le_sq.mpr (h.near bits' h'.finite)
  have hnear' := sq_le_sq.mpr (h'.near bits h.finite)
  -- both numbers would be on the wrong side of the middle between the two
  have hpos := mul_pos (sub_pos.mpr (not_le.mp hgt)) (sub_pos.mpr hlt)
  linarith

/-- A short float is the nearest to its own value. -/
theorem isNearest_of_value_eq (hfinite : IsFinite bits) (h : value bits = q) :
    IsNearest q bits := by
  have hexact : |value bits - q| = 0 := by rw [h, sub_self, abs_zero]
  refine ⟨hfinite, fun other _ => ?_, fun other _ hne htie => absurd ?_ hne⟩
  · rw [hexact]
    exact abs_nonneg _
  · rw [hexact, eq_comm, abs_eq_zero, sub_eq_zero] at htie
    rw [htie, h]

/-! ### Packing -/

theorem infinity_toNat : infinity.toNat = 255 * hiddenBit := by
  decide

theorem isFinite_of_lt (h : bits.toNat < infinity.toNat) : IsFinite bits := by
  rw [infinity_toNat] at h
  rw [IsFinite]
  rw [hiddenBit] at h ⊢
  omega

theorem lt_of_lt_infinity (h : bits.toNat < infinity.toNat) : bits.toNat < 2 ^ 31 := by
  rw [infinity_toNat, hiddenBit] at h
  omega

theorem value_zero : value 0 = 0 := by
  rw [value_of_lt (by decide), significand]
  simp

section Pack

variable {field scaled : ℕ}

theorem toNat_pack (hfits : field * hiddenBit + scaled < infinity.toNat) :
    (UInt32.ofNat (field * hiddenBit + scaled)).toNat = field * hiddenBit + scaled := by
  refine UInt32.toNat_ofNat_of_lt' (hfits.trans ?_)
  decide

/-- **What is packed** is a significand of up to 24 bits, or all ones and one more: that carries
into the exponent. -/
theorem unpack (hfits : field * hiddenBit + scaled < infinity.toNat)
    (hnormal : 0 < field → hiddenBit ≤ scaled) (hhigh : scaled ≤ 2 * hiddenBit) :
    let bits := UInt32.ofNat (field * hiddenBit + scaled)
    (significand bits = scaled ∧ exponent bits = field + leastExponent) ∨
      (scaled = 2 * hiddenBit ∧ significand bits = hiddenBit ∧
        exponent bits = field + leastExponent + 1) := by
  intro bits
  have hbits : bits.toNat = field * hiddenBit + scaled := toNat_pack hfits
  rw [significand, exponent, hbits, leastExponent]
  rcases Nat.lt_or_ge scaled hiddenBit with hlow | hlow
  · obtain rfl : field = 0 := by
      by_contra hne
      exact Nat.not_le.mpr hlow (hnormal (Nat.pos_of_ne_zero hne))
    rw [Nat.zero_mul, Nat.zero_add, Nat.div_eq_of_lt hlow, if_pos rfl, if_pos rfl]
    exact .inl ⟨rfl, rfl⟩
  rcases hhigh.lt_or_eq with hlt | rfl
  · have hdiv : (field * hiddenBit + scaled) / hiddenBit = field + 1 := by
      rw [hiddenBit] at hlow hlt ⊢
      omega
    have hmod : (field * hiddenBit + scaled) % hiddenBit = scaled - hiddenBit := by
      rw [hiddenBit] at hlow hlt ⊢
      omega
    left
    rw [hdiv, hmod, if_neg (Nat.succ_ne_zero field), if_neg (Nat.succ_ne_zero field)]
    exact ⟨Nat.add_sub_cancel' hlow, by omega⟩
  · have hdiv : (field * hiddenBit + 2 * hiddenBit) / hiddenBit = field + 2 := by
      rw [hiddenBit]
      omega
    have hmod : (field * hiddenBit + 2 * hiddenBit) % hiddenBit = 0 := by
      rw [hiddenBit]
      omega
    right
    rw [hdiv, hmod, if_neg (Nat.succ_ne_zero _), if_neg (Nat.succ_ne_zero _)]
    exact ⟨rfl, rfl, by omega⟩

/-- **What is packed** stands for as many last places as it was rounded to. -/
theorem value_pack (hfits : field * hiddenBit + scaled < infinity.toNat)
    (hnormal : 0 < field → hiddenBit ≤ scaled) (hhigh : scaled ≤ 2 * hiddenBit) :
    value (UInt32.ofNat (field * hiddenBit + scaled)) =
      scaled * 2 ^ (field + leastExponent : ℤ) := by
  rw [value_of_lt (lt_of_lt_infinity (by rwa [toNat_pack hfits]))]
  rcases unpack hfits hnormal hhigh with
    ⟨hsignificand, hexponent⟩ | ⟨rfl, hsignificand, hexponent⟩
  · rw [hsignificand, hexponent]
  · rw [hsignificand, hexponent, zpow_add_one₀ two_ne_zero]
    push_cast
    ring

end Pack

/-! ### Casting long floats -/

section Cast

variable {x : Double}

/-- In a binade of its own, a long float has 24 bits down to its last place. -/
theorem hiddenBit_mul_lastPlace_le (hx : x.significand ≠ 0)
    (hnormal : leastExponent ≤ x.exponent + Nat.log2 x.significand - 23) :
    (hiddenBit : ℚ) * 2 ^ lastPlace x ≤ x.value := by
  have hleading : x.exponent + Nat.log2 x.significand = 23 + lastPlace x := by
    rw [lastPlace, max_eq_left hnormal]
    omega
  have hle := Double.two_zpow_le_value hx
  rw [hleading, zpow_add₀ two_ne_zero] at hle
  exact_mod_cast hle

/-- There are no more than 24 bits down to the last place. -/
theorem value_le_mul_lastPlace (x : Double) :
    x.value ≤ (2 * hiddenBit : ℕ) * 2 ^ lastPlace x := by
  have hplace : x.exponent + Nat.log2 x.significand - 23 ≤ lastPlace x := le_max_left _ _
  refine (Double.value_lt_two_zpow x).le.trans ?_
  calc (2 : ℚ) ^ (x.exponent + Nat.log2 x.significand + 1) ≤ 2 ^ (24 + lastPlace x) :=
        zpow_le_zpow_right₀ one_le_two (by omega)
    _ = (2 * hiddenBit : ℕ) * 2 ^ lastPlace x := by
        rw [zpow_add₀ two_ne_zero]
        norm_num [hiddenBit]

/-- A long float is rounded to its last place. -/
theorem isRounded_scaled (x : Double) : IsRounded (x.value / 2 ^ lastPlace x) (scaled x) := by
  have hvalue : x.value / 2 ^ lastPlace x =
      (x.significand * Nat.pow 2 (x.exponent - lastPlace x).toNat : ℕ) /
        (Nat.pow 2 (-(x.exponent - lastPlace x)).toNat : ℕ) := by
    rw [Double.value, mul_div_assoc, ← zpow_sub₀ two_ne_zero, two_zpow_eq, Nat.pow_eq, Nat.pow_eq,
      Nat.cast_mul, mul_div_assoc]
  rw [hvalue]
  exact isRounded_roundDiv _ (Nat.pow_pos two_pos)

theorem scaled_le (x : Double) : scaled x ≤ 2 * hiddenBit :=
  (isRounded_scaled x).le_of_le ((div_le_iff₀ (by positivity)).mpr (value_le_mul_lastPlace x))

theorem hiddenBit_le_scaled (hx : x.significand ≠ 0)
    (hnormal : leastExponent ≤ x.exponent + Nat.log2 x.significand - 23) :
    hiddenBit ≤ scaled x :=
  (isRounded_scaled x).ge_of_ge
    ((le_div_iff₀ (by positivity)).mpr (hiddenBit_mul_lastPlace_le hx hnormal))

/-- Above the last place of the least numbers there is a leading bit. -/
theorem normal_of_lt_lastPlace (h : leastExponent < lastPlace x) :
    leastExponent ≤ x.exponent + Nat.log2 x.significand - 23 := by
  rw [lastPlace, lt_max_iff] at h
  exact h.elim le_of_lt fun hlt => absurd hlt (lt_irrefl _)

/-- A number with an exponent field above zero has a leading bit. -/
theorem hiddenBit_le_scaled_of_pos (hx : x.significand ≠ 0)
    (hpos : 0 < (lastPlace x - leastExponent).toNat) : hiddenBit ≤ scaled x :=
  hiddenBit_le_scaled hx (normal_of_lt_lastPlace (by omega))

theorem ofDouble_of_eq_zero (hx : x.significand = 0) : ofDouble x = 0 :=
  if_pos hx

theorem ofDouble_of_lt (hx : x.significand ≠ 0)
    (hfits : (lastPlace x - leastExponent).toNat * hiddenBit + scaled x < infinity.toNat) :
    ofDouble x = UInt32.ofNat ((lastPlace x - leastExponent).toNat * hiddenBit + scaled x) := by
  rw [ofDouble, if_neg hx]
  exact if_pos hfits

/-- A number that is neither zero nor cast to infinity is packed. -/
theorem ofDouble_eq_pack (hx : x.significand ≠ 0) (hfinite : ofDouble x ≠ infinity) :
    (lastPlace x - leastExponent).toNat * hiddenBit + scaled x < infinity.toNat ∧
      ofDouble x =
        UInt32.ofNat ((lastPlace x - leastExponent).toNat * hiddenBit + scaled x) := by
  by_cases hfits :
      (lastPlace x - leastExponent).toNat * hiddenBit + scaled x < infinity.toNat
  · exact ⟨hfits, ofDouble_of_lt hx hfits⟩
  · refine absurd ?_ hfinite
    rw [ofDouble, if_neg hx]
    exact if_neg hfits

theorem ofDouble_lt (hfinite : ofDouble x ≠ infinity) :
    (ofDouble x).toNat < infinity.toNat := by
  by_cases hx : x.significand = 0
  · rw [ofDouble_of_eq_zero hx]
    decide
  · obtain ⟨hfits, hpack⟩ := ofDouble_eq_pack hx hfinite
    rw [hpack, toNat_pack hfits]
    exact hfits

/-- The result stands for as many last places as the number was rounded to. -/
theorem value_ofDouble (hx : x.significand ≠ 0) (hfinite : ofDouble x ≠ infinity) :
    value (ofDouble x) = scaled x * 2 ^ lastPlace x := by
  obtain ⟨hfits, hpack⟩ := ofDouble_eq_pack hx hfinite
  have hleast : leastExponent ≤ lastPlace x := le_max_right _ _
  rw [hpack, value_pack hfits (hiddenBit_le_scaled_of_pos hx) (scaled_le x),
    Int.toNat_of_nonneg (Int.sub_nonneg.mpr hleast), Int.sub_add_cancel]

theorem even_significand (hx : x.significand ≠ 0) (hfinite : ofDouble x ≠ infinity)
    (h : scaled x % 2 = 0) : significand (magnitude (ofDouble x)) % 2 = 0 := by
  obtain ⟨hfits, hpack⟩ := ofDouble_eq_pack hx hfinite
  rw [magnitude_of_lt (lt_of_lt_infinity (ofDouble_lt hfinite)), hpack]
  rcases unpack hfits (hiddenBit_le_scaled_of_pos hx) (scaled_le x) with
    ⟨hsignificand, -⟩ | ⟨-, hsignificand, -⟩
  · rw [hsignificand, h]
  · rw [hsignificand]
    decide

/-- **Casting** gives the nearest short float, unless it gives infinity. -/
theorem isNearest_ofDouble (hfinite : ofDouble x ≠ infinity) :
    IsNearest x.value (ofDouble x) := by
  have hlt := ofDouble_lt hfinite
  by_cases hx : x.significand = 0
  · refine isNearest_of_value_eq (isFinite_of_lt hlt) ?_
    rw [ofDouble_of_eq_zero hx, value_zero, Double.value_eq_zero_iff.mpr hx]
  · exact isNearest_of_isRounded (isFinite_of_lt hlt) (value_ofDouble hx hfinite)
      (even_significand hx hfinite) (isRounded_scaled x)
      fun hplace => hiddenBit_mul_lastPlace_le hx (normal_of_lt_lastPlace hplace)

-- Half a last place above one of the least numbers, and half a last place above the greatest one.
example : ofDouble ⟨3, -150⟩ = 2 ∧ ofDouble ⟨0x1FFFFFF, 103⟩ = infinity := by
  decide

/-- **A long float that is a short one** is not changed. -/
theorem value_ofDouble_of_short {significand : ℕ} {exponent : ℤ}
    (hvalue : x.value = significand * 2 ^ exponent) (hsignificand : significand < 2 * hiddenBit)
    (hleast : leastExponent ≤ exponent) (hfinite : ofDouble x ≠ infinity) :
    value (ofDouble x) = x.value := by
  by_cases hx : x.significand = 0
  · rw [ofDouble_of_eq_zero hx, value_zero, Double.value_eq_zero_iff.mpr hx]
  have hleading : x.exponent + Nat.log2 x.significand < 24 + exponent := by
    have hlt : (2 : ℚ) ^ (x.exponent + Nat.log2 x.significand) < 2 ^ (24 + exponent) := by
      refine (Double.two_zpow_le_value hx).trans_lt ?_
      rw [hvalue, zpow_add₀ two_ne_zero]
      refine mul_lt_mul_of_pos_right ?_ (by positivity)
      exact_mod_cast hsignificand
    exact (zpow_lt_zpow_iff_right₀ one_lt_two).mp hlt
  have hle : lastPlace x ≤ exponent := max_le (by omega) hleast
  -- nothing is left over below the last place
  obtain ⟨shift, hshift⟩ := Int.eq_ofNat_of_zero_le (Int.sub_nonneg.mpr hle)
  have hwhole : x.value / 2 ^ lastPlace x = (significand * 2 ^ shift : ℕ) := by
    rw [hvalue, mul_div_assoc, ← zpow_sub₀ two_ne_zero, hshift, zpow_natCast, Nat.cast_mul,
      Nat.cast_pow, Nat.cast_two]
  have hscaled := isRounded_scaled x
  rw [hwhole] at hscaled
  rw [value_ofDouble hx hfinite, hscaled.eq_of_natCast, ← hwhole, div_mul_cancel₀ _ (by positivity)]

/-- **Numbers of a normal size** are cast to short floats with a leading bit. Of the last binade,
the greatest are cast to infinity. -/
theorem ofDouble_bounds (hlow : (2 : ℚ) ^ (-126 : ℤ) ≤ x.value) (hhigh : x.value < 2 ^ (127 : ℤ)) :
    hiddenBit ≤ (ofDouble x).toNat ∧ (ofDouble x).toNat < infinity.toNat := by
  have hx : x.significand ≠ 0 := by
    intro hzero
    rw [Double.value_eq_zero_iff.mpr hzero] at hlow
    exact absurd hlow (not_le.mpr (by positivity))
  have hleast : -126 < x.exponent + Nat.log2 x.significand + 1 :=
    (zpow_lt_zpow_iff_right₀ one_lt_two).mp (hlow.trans_lt (Double.value_lt_two_zpow x))
  have hgreatest : x.exponent + Nat.log2 x.significand < 127 :=
    (zpow_lt_zpow_iff_right₀ one_lt_two).mp ((Double.two_zpow_le_value hx).trans_lt hhigh)
  have hnormal : leastExponent ≤ x.exponent + Nat.log2 x.significand - 23 := by
    rw [leastExponent]
    omega
  have hbelow := hiddenBit_le_scaled hx hnormal
  have habove := scaled_le x
  have hfield : (lastPlace x - leastExponent).toNat < 253 := by
    rw [lastPlace, max_eq_left hnormal, leastExponent]
    omega
  have hfits : (lastPlace x - leastExponent).toNat * hiddenBit + scaled x < infinity.toNat := by
    rw [infinity_toNat]
    rw [hiddenBit] at habove ⊢
    omega
  rw [ofDouble_of_lt hx hfits, toNat_pack hfits]
  exact ⟨hbelow.trans (Nat.le_add_left _ _), hfits⟩

end Cast

end Modbus.Single
