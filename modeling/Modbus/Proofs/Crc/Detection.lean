import Mathlib.Algebra.Ring.Parity
import Mathlib.Data.Nat.Bits
import Modbus.Proofs.Crc.Register
import Modbus.Proofs.Frame.Reading

/-!
# Errors of the line

`LineError` lists what a disturbed line does to a message: it flips two bits, or an odd number of
them, or bits that stand close together. None of the three turns a sealed message into another one
(`LineError.not_sealed`), so that a frame refuses what is left of a message that it would have
accepted, and does not take what is left of a refusal for one (`Codec.line_errors_never_pass`).

The reason is the same each time. If what was sent and what was received were both sealed, the bits
that were flipped would leave zero in the register (`foldl_clock_flips`). But an odd number of bits
leaves an odd number of them (`Crc16.oddBits_foldl_clock`), sixteen bits in a row leave the number
that they are, shifted (`Crc16.foldl_clock_burst_ne_zero`), and two bits could only cancel if the
register came back to where it was between them, for which a message is too short
(`Crc16.iterate_shift_one_ne_one`).
-/

namespace Modbus

namespace Crc16

/-! ### An odd number of bits -/

/-- An odd number of the lowest `count` bits of a register are set. -/
def oddBits : Nat → UInt16 → Bool
  | 0, _ => false
  | count + 1, register => lowBit register ^^ oddBits count (register >>> 1)

theorem oddBits_succ (count : Nat) (register : UInt16) :
    oddBits (count + 1) register = (lowBit register ^^ oddBits count (register >>> 1)) := rfl

theorem oddBits_xor (count : Nat) (first second : UInt16) :
    oddBits count (first ^^^ second) = (oddBits count first ^^ oddBits count second) := by
  induction count generalizing first second with
  | zero => rfl
  | succ count ih =>
    rw [oddBits_succ, oddBits_succ, oddBits_succ, lowBit_xor, UInt16.shiftRight_xor, ih]
    simp only [Bool.xor_assoc, Bool.xor_left_comm]

/-- A bit above the number does not count. -/
theorem oddBits_succ_of_lt {count : Nat} {register : UInt16} (h : register.toNat < 2 ^ count) :
    oddBits (count + 1) register = oddBits count register := by
  induction count generalizing register with
  | zero =>
    obtain rfl : register = 0 := UInt16.toNat_inj.mp (Nat.lt_one_iff.mp h)
    rfl
  | succ count ih =>
    have hhalf : (register >>> 1).toNat < 2 ^ count := by
      rw [toNat_shiftRight_one]
      rw [Nat.pow_succ] at h
      omega
    rw [oddBits_succ, ih hhalf, oddBits_succ]

/-- A shift keeps the parity: the generator makes up for the bit that falls out. -/
theorem oddBits_shift (register : UInt16) : oddBits 16 (shift register) = oddBits 16 register := by
  have hhalf : (register >>> 1).toNat < 2 ^ 15 := by
    have hlt := register.toNat_lt
    rw [toNat_shiftRight_one]
    omega
  have hgenerator : oddBits 16 (bif lowBit register then 0xA001 else 0) = lowBit register := by
    cases lowBit register <;> rfl
  rw [shift_eq, oddBits_xor, hgenerator, oddBits_succ_of_lt hhalf, oddBits_succ 15 register,
    Bool.xor_comm]

/-- **The parity of the register** changes with every bit that is taken in and is set. -/
theorem oddBits_foldl_clock (bits : List Bool) (register : UInt16) :
    oddBits 16 (bits.foldl clock register) =
      (oddBits 16 register ^^ (bits.count true).bodd) := by
  induction bits generalizing register with
  | nil => exact (Bool.xor_false _).symm
  | cons bit bits ih =>
    have hclock : oddBits 16 (clock register bit) = (oddBits 16 register ^^ bit) := by
      rw [clock, oddBits_shift, oddBits_xor]
      cases bit <;> rfl
    rw [List.foldl_cons, ih, hclock]
    cases bit <;> simp

theorem foldl_clock_ne_zero_of_odd {bits : List Bool} (hodd : Odd (bits.count true)) :
    bits.foldl clock 0 ≠ 0 := by
  intro hzero
  have hparity := oddBits_foldl_clock bits 0
  have hbodd : (bits.count true).bodd = true := by
    rw [Nat.bodd, Nat.testBit_zero]
    exact decide_eq_true (Nat.odd_iff.mp hodd)
  rw [hzero, hbodd] at hparity
  revert hparity
  decide

/-! ### Bits that stand close together -/

/-- Bits that are clear only shift the register. -/
theorem foldl_clock_of_not_mem {bits : List Bool} (hclear : true ∉ bits) (register : UInt16) :
    bits.foldl clock register = shift^[bits.length] register := by
  have hbits : bits = List.replicate bits.length false := by
    refine List.eq_replicate_of_mem fun bit hmem => ?_
    cases bit with
    | false => rfl
    | true => exact absurd hmem hclear
  rw [hbits, foldl_clock_replicate_false, List.length_replicate]

/-- Before the first bit that is set, the register stays at zero. -/
theorem foldl_clock_zero_of_not_mem {bits : List Bool} (hclear : true ∉ bits) :
    bits.foldl clock 0 = 0 := by
  rw [foldl_clock_of_not_mem hclear, iterate_shift_eq_zero_iff]

theorem foldl_clock_burst_ne_zero {before window after : List Bool} (hbefore : true ∉ before)
    (hwindow : window.length ≤ 16) (hset : true ∈ window) (hafter : true ∉ after) :
    (before ++ window ++ after).foldl clock 0 ≠ 0 := by
  rw [List.foldl_append, List.foldl_append, foldl_clock_zero_of_not_mem hbefore,
    foldl_clock hwindow, foldl_clock_of_not_mem hafter, UInt16.zero_xor]
  intro h
  -- the window would be the number zero, which has no bit that is set
  have hnumber : UInt16.ofNat (numberOfBits window) = 0 :=
    iterate_shift_eq_zero_iff.mp (iterate_shift_eq_zero_iff.mp h)
  have hlt : numberOfBits window < UInt16.size :=
    Nat.lt_of_lt_of_le (numberOfBits_lt window) (Nat.pow_le_pow_right (by decide) hwindow)
  have hzero : numberOfBits window = 0 := by
    rw [← UInt16.toNat_ofNat_of_lt' hlt, hnumber]
    rfl
  exact numberOfBits_eq_zero_iff.mp hzero hset

/-! ### Two bits -/

/-- The register does not come back to one within 2047 shifts. -/
theorem iterate_shift_one_ne_one {count : Nat} (hcount : count < 2047) :
    shift^[count] (shift 1) ≠ 1 := by
  have hnever : (1 : UInt16) ∉ List.iterate shift (shift 1) 2047 := by decide +kernel
  intro h
  exact hnever (List.mem_iterate.mpr ⟨count, hcount, h.symm⟩)

/-- What stands before the first bit that is set, and what behind it. -/
theorem exists_eq_append_cons_of_mem {bits : List Bool} (h : true ∈ bits) :
    ∃ clear rest, true ∉ clear ∧ bits = clear ++ true :: rest := by
  induction bits with
  | nil => exact absurd h List.not_mem_nil
  | cons bit bits ih =>
    cases bit with
    | true => exact ⟨[], bits, List.not_mem_nil, rfl⟩
    | false =>
      obtain ⟨clear, rest, hclear, rfl⟩ := ih (by simpa using h)
      exact ⟨false :: clear, rest, by simpa using hclear, rfl⟩

theorem foldl_clock_ne_zero_of_two {bits : List Bool} (hlength : bits.length ≤ 2048)
    (htwo : bits.count true = 2) : bits.foldl clock 0 ≠ 0 := by
  have hmem : true ∈ bits := List.count_pos_iff.mp (by omega)
  obtain ⟨before, rest, hbefore, rfl⟩ := exists_eq_append_cons_of_mem hmem
  have hone : rest.count true = 1 := by
    rw [List.count_append, List.count_eq_zero.mpr hbefore, List.count_cons_self] at htwo
    omega
  have hmem' : true ∈ rest := List.count_pos_iff.mp (by omega)
  obtain ⟨between, after, hbetween, rfl⟩ := exists_eq_append_cons_of_mem hmem'
  have hafter : true ∉ after := by
    rw [List.count_append, List.count_eq_zero.mpr hbetween, List.count_cons_self] at hone
    exact List.count_eq_zero.mp (by omega)
  have hshort : between.length < 2047 := by
    simp only [List.length_append, List.length_cons] at hlength
    omega
  rw [List.foldl_append, foldl_clock_zero_of_not_mem hbefore, List.foldl_cons, List.foldl_append,
    List.foldl_cons, foldl_clock_of_not_mem hbetween, foldl_clock_of_not_mem hafter]
  intro h
  -- the second bit finds the first where it was taken in
  have hback : shift^[between.length] (shift 1) ^^^ 1 = 0 :=
    shift_eq_zero_iff.mp (iterate_shift_eq_zero_iff.mp h)
  exact iterate_shift_one_ne_one hshort (UInt16.xor_eq_zero_iff.mp hback)

end Crc16

/-! ### What the line does -/

/-- Which bits of a message were flipped, in the order in which they travel. -/
def flips (sent received : List UInt8) : List Bool :=
  List.zipWith xor (transmitted sent) (transmitted received)

/-- A message was disturbed on the line. -/
inductive LineError (sent received : List UInt8) : Prop
  /-- Two bits were flipped. -/
  | two (htwo : (flips sent received).count true = 2)
  /-- An odd number of bits were flipped. -/
  | odd (hodd : Odd ((flips sent received).count true))
  /-- Bits were flipped, all of them within sixteen bits in a row. -/
  | burst {before window after : List Bool}
    (hflips : flips sent received = before ++ window ++ after) (hbefore : true ∉ before)
    (hwindow : window.length ≤ 16) (hset : true ∈ window) (hafter : true ∉ after)

theorem length_flips {sent received : List UInt8} (hlength : received.length = sent.length) :
    (flips sent received).length = 8 * sent.length := by
  rw [flips, List.length_zipWith, length_transmitted, length_transmitted, hlength, Nat.min_self]

/-- A sealed message leaves zero in the register. -/
theorem crc16_sealed (body : List UInt8) : crc16 (sealed body) = 0 := by
  rw [sealed, crcTrailer, crc16_append_pair_eq_zero_iff]
  exact (wordOfBytes_wordBytes (crc16 body)).symm

/-- **The bits between sealed messages** leave zero in a register that begins at zero. -/
theorem foldl_clock_flips {sent received : List UInt8} (hlength : received.length = sent.length)
    (hsent : crc16 sent = 0) (hreceived : crc16 received = 0) :
    (flips sent received).foldl Crc16.clock 0 = 0 := by
  have hbits : (transmitted sent).length = (transmitted received).length := by
    rw [length_transmitted, length_transmitted, hlength]
  have hxor := Crc16.foldl_clock_xor hbits 0xFFFF 0xFFFF
  rw [← crc16_eq_foldl_clock, ← crc16_eq_foldl_clock, hsent, hreceived] at hxor
  exact hxor

/-- **A disturbed message is not sealed** any more. -/
theorem LineError.not_sealed {body received : List UInt8}
    (herror : LineError (sealed body) received) (hlength : received.length = (sealed body).length)
    (hshort : (sealed body).length ≤ maxFrameLen) : ¬ ∃ body', received = sealed body' := by
  rintro ⟨body', rfl⟩
  have hzero := foldl_clock_flips hlength (crc16_sealed body) (crc16_sealed body')
  cases herror with
  | two htwo =>
    have hbits : (flips (sealed body) (sealed body')).length ≤ 2048 := by
      rw [length_flips hlength]
      exact Nat.mul_le_mul_left 8 hshort
    exact Crc16.foldl_clock_ne_zero_of_two hbits htwo hzero
  | odd hodd => exact Crc16.foldl_clock_ne_zero_of_odd hodd hzero
  | burst hflips hbefore hwindow hset hafter =>
    rw [hflips] at hzero
    exact Crc16.foldl_clock_burst_ne_zero hbefore hwindow hset hafter hzero

namespace Codec

variable {capacity : Nat}

/-- The outcome of taking in a message that fits is that of looking at it. -/
theorem exec_load_validate {message : List UInt8} {frame : Frame capacity}
    (hshort : message.length ≤ maxFrameLen) (hfits : message.length ≤ capacity) :
    (do load message; validate).exec frame =
      validate.exec { expectedLen := frame.expectedLen, bytes := message } :=
  exec_bind_of_ok (exec_load_eq_ok_iff.mpr ⟨hshort, hfits, rfl⟩)

/-- **Errors of the line never pass.** Where a message would be accepted, what is left of it after
an error of the line is refused for its check. What is left of a refusal is a message of the wrong
length, unless its length is due. -/
theorem line_errors_never_pass {other : Frame capacity} {received : List UInt8} :
    (∀ {sent accepted : Frame capacity}, validate.exec sent = (.ok (), accepted) →
      sent.expectedLen ≤ maxFrameLen → sent.expectedLen ≤ capacity →
      received.length = sent.expectedLen → LineError sent.bytes received →
      other.expectedLen = sent.expectedLen →
        ∃ body low high, received = body ++ [low, high] ∧
          crc16 body ≠ wordOfBytes high low ∧
          ((do load received; validate).exec other).1 =
            .error (.crcMismatch (crc16 body) (wordOfBytes high low))) ∧
    (∀ {refusal : List UInt8}, IsRefusal refusal → exceptionFrameLen ≤ capacity →
      received.length = exceptionFrameLen → LineError refusal received →
      other.expectedLen ≠ exceptionFrameLen →
        ((do load received; validate).exec other).1 =
          .error (.frameLength other.expectedLen exceptionFrameLen)) := by
  refine ⟨?_, ?_⟩
  · intro sent accepted haccepted hshort hfits hlength herror hdue
    obtain ⟨body, hsent, hexpected, -⟩ := exec_validate_eq_ok_iff.mp haccepted
    rw [hsent] at herror
    have hsealed : sent.expectedLen = (sealed body).length := by
      rw [hexpected, length_sealed, crcLen]
    have hbroken := herror.not_sealed (hlength.trans hsealed) (hsealed ▸ hshort)
    have hroom : crcLen ≤ received.length := by omega
    obtain ⟨body', low, high, rfl⟩ := exists_eq_append_pair hroom
    have hcheck : crc16 body' ≠ wordOfBytes high low := fun hcrc =>
      hbroken ⟨body', append_pair_eq_sealed_iff.mpr ⟨rfl, hcrc⟩⟩
    refine ⟨body', low, high, rfl, hcheck, ?_⟩
    rw [exec_load_validate (hlength ▸ hshort) (hlength ▸ hfits)]
    exact congrArg Prod.fst (exec_validate_wrongCheck rfl (hlength.trans hdue.symm) hcheck)
  · rintro refusal ⟨sender, function, code, rfl, -⟩ hfits hlength herror hdue
    have hbroken := herror.not_sealed hlength (by decide : 5 ≤ maxFrameLen)
    have hregular : ¬ IsRefusal received := by
      rintro ⟨sender', function', code', hreceived, -⟩
      exact hbroken ⟨_, hreceived⟩
    have hwrong : received.length ≠ other.expectedLen := fun h => hdue (h.symm.trans hlength)
    have hshort : received.length ≤ maxFrameLen := hlength ▸ (by decide : 5 ≤ maxFrameLen)
    rw [exec_load_validate hshort (hlength ▸ hfits), ← hlength]
    exact congrArg Prod.fst (exec_validate_wrongLength hregular hwrong)

/-- Two bits of the value that a write echoes are flipped, and one bit of a refusal. -/
theorem line_errors_never_pass_two_and_one :
    (let trailer := crcTrailer (crc16 [0x11, 0x06, 0, 1, 0, 3])
     let echo : Frame maxFrameLen :=
      { expectedLen := 8, bytes := [0x11, 0x06, 0, 1, 0, 3] ++ trailer }
     let received := [0x11, 0x06, 0, 1, 0, 0] ++ trailer
     validate.exec echo = (.ok (), { echo with remaining := 6 }) ∧ LineError echo.bytes received ∧
      ∃ body low high, received = body ++ [low, high] ∧ crc16 body ≠ wordOfBytes high low ∧
        ((do load received; validate).exec { expectedLen := 8 : Frame maxFrameLen }).1 =
          .error (.crcMismatch (crc16 body) (wordOfBytes high low))) ∧
    (let refusal := sealed [0x11, 0x86, 2]
     let received := [0x11, 0x86, 3] ++ crcTrailer (crc16 [0x11, 0x86, 2])
     IsRefusal refusal ∧ LineError refusal received ∧
      ((do load received; validate).exec { expectedLen := 8 : Frame maxFrameLen }).1 =
        .error (.frameLength 8 5)) := by
  have hecho : LineError (sealed [0x11, 0x06, 0, 1, 0, 3])
      ([0x11, 0x06, 0, 1, 0, 0] ++ crcTrailer (crc16 [0x11, 0x06, 0, 1, 0, 3])) :=
    .two (by decide +kernel)
  have hrefusal : LineError (sealed [0x11, 0x86, 2])
      ([0x11, 0x86, 3] ++ crcTrailer (crc16 [0x11, 0x86, 2])) :=
    .odd (by decide +kernel)
  have haccepted : validate.exec
      { expectedLen := 8, bytes := sealed [0x11, 0x06, 0, 1, 0, 3] : Frame maxFrameLen } =
        (.ok (), .opened 8 [0x11, 0x06, 0, 1, 0, 3]
          (crcTrailer (crc16 [0x11, 0x06, 0, 1, 0, 3]))) :=
    exec_validate_eq_ok_iff.mpr ⟨_, rfl, rfl, rfl⟩
  have hflag : IsRefusal (sealed [0x11, 0x86, 2]) := ⟨0x11, 0x86, 2, rfl, by decide⟩
  refine ⟨⟨haccepted, hecho, ?_⟩, hflag, hrefusal, ?_⟩
  · exact line_errors_never_pass.1 haccepted (by decide) (by decide) rfl hecho rfl
  · exact line_errors_never_pass.2 hflag (by decide) rfl hrefusal (by decide)

end Codec

end Modbus
