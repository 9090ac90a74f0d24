import Modbus.Register.Value

/-!
# Readings

A `Reading` is the words of a register as they were read at some time. Time zero marks a register
that was never read; such a reading agrees with nothing, not even with itself
(`Reading.agrees_self_iff`).
-/

namespace Modbus

/-- The words of a register at some time. -/
structure Reading where
  descriptor : Descriptor
  time : UInt32
  words : List UInt16
deriving DecidableEq, Repr

namespace Reading

/-- A register that was never read. -/
def unread (descriptor : Descriptor) : Reading :=
  { descriptor, time := 0, words := List.replicate descriptor.length.toNat 0 }

/-- The reading taken anew; the width of a register does not change. -/
def set (reading : Reading) (time : UInt32) (words : List UInt16) : Except Violation Reading :=
  if words.length = reading.words.length then .ok { reading with time, words }
  else
    .error (.recordedWidth reading.descriptor.start reading.descriptor.name reading.words.length)

/-- A register read at some time. -/
def taken (descriptor : Descriptor) (time : UInt32) (words : List UInt16) :
    Except Violation Reading :=
  (unread descriptor).set time words

/-- The register was read. -/
def isValid (reading : Reading) : Bool :=
  reading.time ≠ 0

/-- Both registers were read, and their words are the same. -/
def agrees (first second : Reading) : Bool :=
  -- when they were read does not matter, as long as they were
  first.isValid && second.isValid && first.words == second.words

/-- What the words mean. -/
def measurement (reading : Reading) : Except Violation Measurement :=
  Measurement.ofWords reading.descriptor reading.words reading.time

/-- The words as text. -/
def text (reading : Reading) : String :=
  if reading.isValid then
    String.join (reading.words.map fun word => Text.hexDigits 4 word.toNat)
  else "<invalid>"

/-- A reading agrees with itself exactly if the register was read. -/
theorem agrees_self_iff (reading : Reading) : reading.agrees reading = reading.isValid := by
  simp [agrees]

/-- Which of two readings comes first does not matter. -/
theorem agrees_comm (first second : Reading) : first.agrees second = second.agrees first := by
  rw [Bool.eq_iff_iff]
  simp only [agrees, Bool.and_eq_true, beq_iff_eq]
  constructor <;> rintro ⟨⟨h, h'⟩, h''⟩ <;> exact ⟨⟨h', h⟩, h''.symm⟩

end Reading

end Modbus
