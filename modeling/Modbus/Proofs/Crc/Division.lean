import Mathlib.Algebra.CharP.Two
import Mathlib.Algebra.Field.ZMod
import Mathlib.Algebra.Polynomial.Div
import Mathlib.Tactic.ComputeDegree
import Mathlib.Tactic.LinearCombination
import Modbus.Proofs.Crc.Register

/-!
# The check is a remainder

Bits that travel one after the other are the coefficients of a polynomial over the field of two
elements, the first bit that of the highest power (`bitPolynomial`). Read in this way, a shift of
the register multiplies it by `x` and takes the generator away where a one falls out
(`Crc16.bitPolynomial_shift`), so taking bits in is long division: the register is what is left,
and the bits that fell out are the digits of the quotient (`Crc16.exists_quotient`).

A register that begins as all ones stands for ones in front of the message. The check of a message
of `n` bytes is thus the remainder of `M(x) * x^16 + (x^15 + ... + 1) * x^(8n)`
(`crc16_eq_remainder`).
-/

namespace Modbus

open Polynomial

/-! ### Bits as polynomials -/

/-- The polynomial with these bits as coefficients, the first that of the highest power. -/
noncomputable def bitPolynomial : List Bool → (ZMod 2)[X]
  | [] => 0
  | bit :: bits => (bit.toNat : (ZMod 2)[X]) * X ^ bits.length + bitPolynomial bits

/-- The bits of a word, the lowest first. -/
def wordBits (word : UInt16) : List Bool :=
  (List.range 16).map word.toNat.testBit

@[simp] theorem bitPolynomial_nil : bitPolynomial [] = 0 := rfl

theorem bitPolynomial_cons (bit : Bool) (bits : List Bool) :
    bitPolynomial (bit :: bits) =
      (bit.toNat : (ZMod 2)[X]) * X ^ bits.length + bitPolynomial bits := rfl

theorem bitPolynomial_append (first second : List Bool) :
    bitPolynomial (first ++ second) =
      bitPolynomial first * X ^ second.length + bitPolynomial second := by
  induction first with
  | nil => simp
  | cons bit first ih =>
    rw [List.cons_append, bitPolynomial_cons, ih, bitPolynomial_cons, List.length_append]
    ring

/-- Bits that are clear add nothing. -/
theorem bitPolynomial_replicate_false (count : Nat) :
    bitPolynomial (List.replicate count false) = 0 := by
  induction count with
  | zero => rfl
  | succ count ih => simp [List.replicate_succ, bitPolynomial_cons, ih]

/-- Bits that are set add one power each. -/
theorem bitPolynomial_replicate_true (count : Nat) :
    bitPolynomial (List.replicate count true) = ∑ i ∈ Finset.range count, X ^ i := by
  induction count with
  | zero => rfl
  | succ count ih =>
    rw [List.replicate_succ, bitPolynomial_cons, ih, List.length_replicate, Bool.toNat_true,
      Nat.cast_one, one_mul, Finset.sum_range_succ, add_comm]

theorem toNat_xor_eq_add (bit other : Bool) :
    ((bit ^^ other).toNat : (ZMod 2)[X]) = bit.toNat + other.toNat := by
  cases bit <;> cases other <;> simp [CharTwo.add_self_eq_zero]

/-- **Exclusive or is addition.** -/
theorem bitPolynomial_zipWith_xor {first second : List Bool}
    (hlength : first.length = second.length) :
    bitPolynomial (List.zipWith xor first second) =
      bitPolynomial first + bitPolynomial second := by
  induction first generalizing second with
  | nil =>
    obtain rfl := List.eq_nil_of_length_eq_zero hlength.symm
    simp
  | cons bit first ih =>
    obtain ⟨other, second, rfl⟩ := List.exists_cons_of_length_eq_add_one hlength.symm
    have hrest : first.length = second.length := Nat.succ.inj hlength
    have hzip : (List.zipWith xor first second).length = second.length := by
      rw [List.length_zipWith, hrest, Nat.min_self]
    rw [List.zipWith_cons_cons, bitPolynomial_cons, bitPolynomial_cons, bitPolynomial_cons,
      ih hrest, hzip, hrest, toNat_xor_eq_add]
    ring

/-- A polynomial has fewer powers than bits. -/
theorem degree_bitPolynomial_lt (bits : List Bool) :
    (bitPolynomial bits).degree < bits.length := by
  induction bits with
  | nil => simp
  | cons bit bits ih =>
    have hlonger : (bits.length : WithBot ℕ) < (bit :: bits).length := by
      exact_mod_cast Nat.lt_succ_self bits.length
    have hfirst : ((bit.toNat : (ZMod 2)[X]) * X ^ bits.length).degree ≤
        (bits.length : WithBot ℕ) := by
      rw [← C_eq_natCast]
      exact degree_C_mul_X_pow_le _ _
    rw [bitPolynomial_cons]
    exact (degree_add_le _ _).trans_lt (max_lt (hfirst.trans_lt hlonger) (ih.trans hlonger))

namespace Crc16

/-! ### A shift -/

/-- What messages are divided by. -/
noncomputable def generator : (ZMod 2)[X] :=
  X ^ 16 + X ^ 15 + X ^ 2 + 1

theorem monic_generator : generator.Monic := by
  rw [generator]
  monicity!

theorem degree_generator : generator.degree = 16 := by
  rw [generator]
  compute_degree!

/-- The polynomial of a register: its lowest bit, which falls out next, is that of `x^15`. -/
noncomputable def polynomial (register : UInt16) : (ZMod 2)[X] :=
  bitPolynomial (wordBits register)

theorem polynomial_xor (first second : UInt16) :
    polynomial (first ^^^ second) = polynomial first + polynomial second := by
  have hbits : wordBits (first ^^^ second) =
      List.zipWith xor (wordBits first) (wordBits second) := by
    rw [wordBits, wordBits, wordBits, UInt16.toNat_xor, List.zipWith_map, List.zipWith_self]
    exact List.map_congr_left fun i _ => Nat.testBit_xor _ _ _
  have hlength : (wordBits first).length = (wordBits second).length := rfl
  rw [polynomial, hbits, bitPolynomial_zipWith_xor hlength, polynomial, polynomial]

/-- A bit joins the register at the highest power. -/
theorem polynomial_toUInt16 (bit : Bool) :
    polynomial bit.toUInt16 = (bit.toNat : (ZMod 2)[X]) * X ^ 15 := by
  have hbits : wordBits bit.toUInt16 = bit :: List.replicate 15 false := by
    cases bit <;> decide
  rw [polynomial, hbits, bitPolynomial_cons, bitPolynomial_replicate_false, add_zero,
    List.length_replicate]

/-- The bits above the lowest one go up by a power. -/
theorem polynomial_shiftRight (register : UInt16) :
    polynomial (register >>> 1) + ((lowBit register).toNat : (ZMod 2)[X]) * X ^ 16 =
      polynomial register * X := by
  let others := (List.range 15).map fun i => register.toNat.testBit (i + 1)
  have hregister : wordBits register = lowBit register :: others := by
    rw [wordBits, List.range_succ_eq_map, List.map_cons, List.map_map]
    rfl
  have hhigh : (register >>> 1).toNat.testBit 15 = false := by
    have hlt := register.toNat_lt
    rw [toNat_shiftRight_one]
    exact Nat.testBit_lt_two_pow (by omega)
  have hshifted : wordBits (register >>> 1) = others ++ [false] := by
    rw [wordBits, List.range_succ, List.map_append, List.map_singleton, hhigh, toNat_shiftRight_one]
    refine congrArg (· ++ [false]) (List.map_congr_left fun i _ => ?_)
    exact Nat.testBit_div_two _ _
  have hlength : others.length = 15 := rfl
  have hclear : bitPolynomial [false] = 0 := bitPolynomial_replicate_false 1
  rw [polynomial, polynomial, hregister, hshifted, bitPolynomial_append, hclear,
    List.length_singleton, bitPolynomial_cons, hlength]
  ring

/-- The low powers of the generator are the word that a register is corrected with. -/
theorem polynomial_add_eq_generator : polynomial 0xA001 + X ^ 16 = generator := by
  have hbits : wordBits 0xA001 =
      true :: (List.replicate 12 false ++ [true, false, true]) := by decide
  rw [polynomial, hbits, bitPolynomial_cons, bitPolynomial_append, bitPolynomial_replicate_false,
    generator]
  simp [bitPolynomial_cons]
  ring

/-- **A shift multiplies** the register by `x`, and takes the generator away where a one falls
out. -/
theorem polynomial_shift (register : UInt16) :
    polynomial (shift register) + generator * ((lowBit register).toNat : (ZMod 2)[X]) =
      polynomial register * X := by
  rw [← polynomial_shiftRight, shift_eq, polynomial_xor, ← polynomial_add_eq_generator]
  cases lowBit register with
  | false =>
    have hzero : polynomial 0 = 0 := bitPolynomial_replicate_false 16
    simp [hzero]
  | true =>
    -- the low powers of the generator come in twice
    have htwice := CharTwo.add_self_eq_zero (polynomial 0xA001)
    rw [cond_true, Bool.toNat_true, Nat.cast_one]
    linear_combination htwice

/-! ### Long division -/

/-- **Taking bits in is long division.** The register before, followed by the bits, is divided by
the generator; what is left is the register after. -/
theorem exists_quotient (bits : List Bool) (register : UInt16) :
    ∃ quotient, polynomial (bits.foldl clock register) + generator * quotient =
      polynomial register * X ^ bits.length + bitPolynomial bits * X ^ 16 := by
  induction bits generalizing register with
  | nil => exact ⟨0, by simp⟩
  | cons bit bits ih =>
    obtain ⟨quotient, hquotient⟩ := ih (clock register bit)
    have hshift := polynomial_shift (register ^^^ bit.toUInt16)
    rw [polynomial_xor, polynomial_toUInt16] at hshift
    -- the bit that falls out is the next digit of the quotient
    let digit : (ZMod 2)[X] := (lowBit (register ^^^ bit.toUInt16)).toNat
    refine ⟨digit * X ^ bits.length + quotient, ?_⟩
    rw [List.foldl_cons, bitPolynomial_cons, List.length_cons]
    rw [clock] at hquotient ⊢
    linear_combination hquotient + X ^ bits.length * hshift

/-- The register after a message is a remainder. -/
theorem polynomial_foldl_clock (bits : List Bool) (register : UInt16) :
    polynomial (bits.foldl clock register) =
      (polynomial register * X ^ bits.length + bitPolynomial bits * X ^ 16) %ₘ generator := by
  obtain ⟨quotient, hquotient⟩ := exists_quotient bits register
  have hdegree : (polynomial (bits.foldl clock register)).degree < generator.degree := by
    rw [degree_generator]
    exact degree_bitPolynomial_lt _
  exact (div_modByMonic_unique quotient _ monic_generator ⟨hquotient, hdegree⟩).2.symm

end Crc16

/-- **The check is a remainder.** With the bits of a message as coefficients, the first that of the
highest power, and with all ones in front of them, the check is what is left after a division by
`x^16 + x^15 + x^2 + 1`, its lowest bit being the coefficient of `x^15`. Hence a message leaves zero
exactly if its last two bytes, the low one first, are the check of the others. -/
theorem crc16_eq_remainder (message : List UInt8) :
    bitPolynomial (wordBits (crc16 message)) =
        (bitPolynomial (transmitted message) * X ^ 16 +
          (∑ i ∈ Finset.range 16, X ^ i) * X ^ (8 * message.length)) %ₘ
            (X ^ 16 + X ^ 15 + X ^ 2 + 1) ∧
      ∀ low high : UInt8,
        crc16 (message ++ [low, high]) = 0 ↔
          low.toNat + 256 * high.toNat = (crc16 message).toNat := by
  refine ⟨?_, fun low high => ?_⟩
  · have hones : Crc16.polynomial 0xFFFF = ∑ i ∈ Finset.range 16, X ^ i :=
      bitPolynomial_replicate_true 16
    have hcrc := Crc16.polynomial_foldl_clock (transmitted message) 0xFFFF
    rw [← crc16_eq_foldl_clock, hones, length_transmitted, add_comm] at hcrc
    exact hcrc
  · have hlow := low.toNat_lt
    have hhigh := high.toNat_lt
    have hword : (wordOfBytes high low).toNat = low.toNat + 256 * high.toNat := by
      rw [wordOfBytes, UInt16.toNat_ofNat_of_lt' (by rw [UInt16.size]; omega), Nat.add_comm]
    rw [crc16_append_pair_eq_zero_iff, ← UInt16.toNat_inj, hword]
    exact eq_comm

end Modbus
