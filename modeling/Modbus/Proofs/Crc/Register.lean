import Mathlib.Data.List.Iterate
import Mathlib.Data.Nat.Bitwise
import Mathlib.Logic.Function.Iterate
import Mathlib.Tactic.Ring
import Modbus.Crc16

/-!
# The register of the check, bit by bit

A message travels byte by byte, each byte from its lowest bit to its highest: `transmitted` lists
the bits in this order. `Crc16.clock` takes one of them into the register, and the check of a
message is the register after all of them (`crc16_eq_foldl_clock`). Up to sixteen bits may as well
be taken in at once, as a number (`Crc16.foldl_clock`); a byte is fed in this way, and so is the
trailer, which leaves zero exactly if it carries the check (`crc16_append_pair_eq_zero_iff`).

A shift of the register is linear in exclusive or (`Crc16.shift_xor`) and loses nothing
(`Crc16.shift_eq_zero_iff`). Hence the registers of two messages differ by the register of their
difference, begun at zero (`Crc16.foldl_clock_xor`).
-/

namespace Modbus

/-! ### The order of transmission -/

/-- The bits of a byte as they travel, the lowest first. -/
def byteBits (byte : UInt8) : List Bool :=
  (List.range 8).map byte.toNat.testBit

/-- The bits of a message as they travel. -/
def transmitted (message : List UInt8) : List Bool :=
  message.flatMap byteBits

/-- The number with these bits, the lowest first. -/
def numberOfBits : List Bool → Nat
  | [] => 0
  | bit :: bits => bit.toNat + 2 * numberOfBits bits

@[simp] theorem length_byteBits (byte : UInt8) : (byteBits byte).length = 8 := rfl

theorem transmitted_cons (byte : UInt8) (message : List UInt8) :
    transmitted (byte :: message) = byteBits byte ++ transmitted message := rfl

@[simp] theorem length_transmitted (message : List UInt8) :
    (transmitted message).length = 8 * message.length := by
  induction message with
  | nil => rfl
  | cons byte message ih =>
    rw [transmitted_cons, List.length_append, length_byteBits, ih, List.length_cons]
    omega

theorem numberOfBits_lt (bits : List Bool) : numberOfBits bits < 2 ^ bits.length := by
  induction bits with
  | nil => exact Nat.one_pos
  | cons bit bits ih =>
    have hbit := Bool.toNat_le bit
    rw [numberOfBits, List.length_cons, Nat.pow_succ]
    omega

theorem numberOfBits_append (first second : List Bool) :
    numberOfBits (first ++ second) =
      numberOfBits first + 2 ^ first.length * numberOfBits second := by
  induction first with
  | nil => simp [numberOfBits]
  | cons bit first ih =>
    rw [List.cons_append, numberOfBits, numberOfBits, ih, List.length_cons, Nat.pow_succ]
    ring

/-- A number that is not zero has a bit that is set. -/
theorem numberOfBits_eq_zero_iff {bits : List Bool} : numberOfBits bits = 0 ↔ true ∉ bits := by
  induction bits with
  | nil => simp [numberOfBits]
  | cons bit bits ih =>
    rw [numberOfBits, List.mem_cons, not_or, ← ih]
    cases bit <;> simp

/-- The bits of a byte are those of its number. -/
@[simp] theorem numberOfBits_byteBits (byte : UInt8) :
    numberOfBits (byteBits byte) = byte.toNat := by
  have hlt := byte.toNat_lt
  simp only [byteBits, List.range, List.range.loop, List.map, numberOfBits, Nat.toNat_testBit]
  omega

namespace Crc16

/-! ### A shift is linear -/

/-- The bit that falls out of the register at a shift. -/
def lowBit (register : UInt16) : Bool :=
  register.toNat.testBit 0

theorem and_one_eq_zero_iff {register : UInt16} :
    register &&& 1 = 0 ↔ lowBit register = false := by
  rw [← UInt16.toNat_inj, UInt16.toNat_and, lowBit, Nat.testBit_zero]
  show register.toNat &&& 1 = 0 ↔ _
  rw [Nat.and_one_is_mod, decide_eq_false_iff_not]
  omega

theorem shift_eq (register : UInt16) :
    shift register = (register >>> 1) ^^^ bif lowBit register then 0xA001 else 0 := by
  rw [shift]
  cases hlow : lowBit register with
  | false => rw [if_pos (and_one_eq_zero_iff.mpr hlow), cond_false, UInt16.xor_zero]
  | true =>
    have hne : ¬ register &&& 1 = 0 := by simp [and_one_eq_zero_iff, hlow]
    rw [if_neg hne, cond_true]

theorem lowBit_xor (first second : UInt16) :
    lowBit (first ^^^ second) = (lowBit first ^^ lowBit second) := by
  rw [lowBit, UInt16.toNat_xor, Nat.testBit_xor]
  rfl

/-- **A shift is linear.** -/
theorem shift_xor (first second : UInt16) :
    shift (first ^^^ second) = shift first ^^^ shift second := by
  have hgenerator : (bif lowBit (first ^^^ second) then 0xA001 else 0 : UInt16) =
      (bif lowBit first then 0xA001 else 0) ^^^ bif lowBit second then 0xA001 else 0 := by
    rw [lowBit_xor]
    cases lowBit first <;> cases lowBit second <;> rfl
  rw [shift_eq, shift_eq first, shift_eq second, UInt16.shiftRight_xor, hgenerator]
  ac_rfl

theorem toNat_shiftRight_one (register : UInt16) :
    (register >>> 1).toNat = register.toNat / 2 := by
  rw [UInt16.toNat_shiftRight]
  exact Nat.shiftRight_one _

/-- A shift loses nothing. -/
theorem shift_eq_zero_iff {register : UInt16} : shift register = 0 ↔ register = 0 := by
  refine ⟨fun h => ?_, by rintro rfl; rfl⟩
  have hlt := register.toNat_lt
  rw [shift_eq, UInt16.xor_eq_zero_iff, ← UInt16.toNat_inj, toNat_shiftRight_one] at h
  rw [← UInt16.toNat_inj]
  show register.toNat = 0
  cases hlow : lowBit register with
  | false =>
    have heven : ¬ register.toNat % 2 = 1 := by simpa [lowBit, Nat.testBit_zero] using hlow
    rw [hlow, cond_false] at h
    have hzero : register.toNat / 2 = 0 := h
    omega
  | true =>
    -- the generator has its highest bit set, half of a register has not
    rw [hlow, cond_true] at h
    have hgenerator : register.toNat / 2 = 0xA001 := h
    omega

/-- Nothing falls out of an even number. -/
theorem shift_double {n : Nat} (hn : n < 2 ^ 15) :
    shift (UInt16.ofNat (2 * n)) = UInt16.ofNat n := by
  have hdouble : 2 * n < UInt16.size := by
    rw [UInt16.size]
    omega
  have htoNat : (UInt16.ofNat (2 * n)).toNat = 2 * n := UInt16.toNat_ofNat_of_lt' hdouble
  have hlow : lowBit (UInt16.ofNat (2 * n)) = false := by
    rw [lowBit, htoNat, Nat.testBit_zero, decide_eq_false_iff_not]
    omega
  rw [shift_eq, hlow, cond_false, UInt16.xor_zero, ← UInt16.toNat_inj, toNat_shiftRight_one, htoNat,
    UInt16.toNat_ofNat_of_lt' (by omega)]
  omega

theorem iterate_shift_eq_zero_iff {count : Nat} {register : UInt16} :
    shift^[count] register = 0 ↔ register = 0 := by
  induction count generalizing register with
  | zero => rfl
  | succ count ih => rw [Function.iterate_succ_apply, ih, shift_eq_zero_iff]

/-! ### One bit -/

/-- The register after one more bit. -/
def clock (register : UInt16) (bit : Bool) : UInt16 :=
  shift (register ^^^ bit.toUInt16)

theorem clock_xor (first second : UInt16) (bit other : Bool) :
    clock (first ^^^ second) (bit ^^ other) = clock first bit ^^^ clock second other := by
  have hbits : (bit ^^ other).toUInt16 = bit.toUInt16 ^^^ other.toUInt16 := by
    cases bit <;> cases other <;> rfl
  rw [clock, clock, clock, ← shift_xor, hbits]
  congr 1
  ac_rfl

/-- Registers that take in different bits differ by the register that takes in the difference. -/
theorem foldl_clock_xor {bits others : List Bool} (hlength : bits.length = others.length)
    (first second : UInt16) :
    (List.zipWith xor bits others).foldl clock (first ^^^ second) =
      bits.foldl clock first ^^^ others.foldl clock second := by
  induction bits generalizing others first second with
  | nil =>
    obtain rfl := List.eq_nil_of_length_eq_zero hlength.symm
    rfl
  | cons bit bits ih =>
    obtain ⟨other, others, rfl⟩ := List.exists_cons_of_length_eq_add_one hlength.symm
    rw [List.zipWith_cons_cons, List.foldl_cons, List.foldl_cons, List.foldl_cons, clock_xor]
    exact ih (Nat.succ.inj hlength) _ _

/-- Bits that are clear only shift the register. -/
theorem foldl_clock_replicate_false (count : Nat) (register : UInt16) :
    (List.replicate count false).foldl clock register = shift^[count] register := by
  induction count generalizing register with
  | zero => rfl
  | succ count ih =>
    have hclear : clock register false = shift register := congrArg shift (UInt16.xor_zero)
    rw [List.replicate_succ, List.foldl_cons, ih, hclear, Function.iterate_succ_apply]

/-- **Up to sixteen bits may be taken in at once**: they join the register as a number, and are
shifted out together. -/
theorem foldl_clock {bits : List Bool} (hlength : bits.length ≤ 16) (register : UInt16) :
    bits.foldl clock register =
      shift^[bits.length] (register ^^^ UInt16.ofNat (numberOfBits bits)) := by
  induction bits generalizing register with
  | nil => exact UInt16.xor_zero.symm
  | cons bit bits ih =>
    rw [List.length_cons] at hlength
    have hlt : numberOfBits bits < 2 ^ 15 :=
      Nat.lt_of_lt_of_le (numberOfBits_lt bits) (Nat.pow_le_pow_right (by decide) (by omega))
    -- the first bit stands below the others
    have hsplit : UInt16.ofNat (numberOfBits (bit :: bits)) =
        bit.toUInt16 ^^^ UInt16.ofNat (2 * numberOfBits bits) := by
      have hword : bit.toUInt16 = UInt16.ofNat bit.toNat := by cases bit <;> rfl
      have hsum : bit.toNat ^^^ 2 * numberOfBits bits = bit.toNat + 2 * numberOfBits bits := by
        cases bit with
        | false => simp
        | true =>
          rw [Nat.xor_comm, Bool.toNat_true, Nat.xor_one_of_even (even_two_mul _), Nat.add_comm]
      rw [hword, ← UInt16.ofNat_xor, hsum, numberOfBits]
    rw [List.foldl_cons, ih (by omega), List.length_cons, Function.iterate_succ_apply, hsplit,
      ← UInt16.xor_assoc, shift_xor, shift_double hlt, clock]

theorem feed_eq_foldl_clock (register : UInt16) (byte : UInt8) :
    feed register byte = (byteBits byte).foldl clock register := by
  have hlength : (byteBits byte).length ≤ 16 := Nat.le_add_left 8 8
  rw [foldl_clock hlength, numberOfBits_byteBits, UInt16.ofNat_uInt8ToNat]
  rfl

/-- A message is taken in bit by bit in the order in which it travels. -/
theorem foldl_feed (register : UInt16) (message : List UInt8) :
    message.foldl feed register = (transmitted message).foldl clock register := by
  induction message generalizing register with
  | nil => rfl
  | cons byte message ih =>
    rw [transmitted_cons, List.foldl_append, List.foldl_cons, ih, feed_eq_foldl_clock]

end Crc16

/-! ### The whole message -/

theorem crc16_eq_foldl_clock (message : List UInt8) :
    crc16 message = (transmitted message).foldl Crc16.clock 0xFFFF :=
  Crc16.foldl_feed 0xFFFF message

/-- **A message leaves zero** in the register exactly if its last two bytes, the low one first, are
the check of the others. -/
theorem crc16_append_pair_eq_zero_iff (body : List UInt8) (low high : UInt8) :
    crc16 (body ++ [low, high]) = 0 ↔ crc16 body = wordOfBytes high low := by
  have hnumber : UInt16.ofNat (numberOfBits (transmitted [low, high])) = wordOfBytes high low := by
    have hbits : transmitted [low, high] = byteBits low ++ byteBits high := rfl
    rw [hbits, numberOfBits_append, numberOfBits_byteBits, numberOfBits_byteBits, wordOfBytes,
      Nat.add_comm, length_byteBits]
    simp only [Nat.reducePow]
  have hlength : (transmitted [low, high]).length ≤ 16 := Nat.le_refl 16
  rw [crc16_append, Crc16.foldl_feed, Crc16.foldl_clock hlength, Crc16.iterate_shift_eq_zero_iff,
    hnumber, UInt16.xor_eq_zero_iff]

end Modbus
