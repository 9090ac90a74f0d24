import Modbus.Register.Format
import Modbus.Text.Display

/-!
# Register descriptors

A `Descriptor` says where a register is, how wide, how its words are understood and how much of its
history is kept. Any descriptor can be written down; `Descriptor.check` finds the first reason why
one cannot be used.
-/

namespace Modbus

/-- What is known about one register of a device. -/
structure Descriptor where
  /-- The address of its first word. -/
  start : UInt16
  /-- How many words it has. -/
  length : UInt16
  name : String
  /-- How many readings are kept. -/
  keep : UInt16 := 1
  /-- Keep a reading only if it differs from the one before. -/
  changesOnly : Bool := false
  format : Format := .hex
  /-- How many bits of a fixed point number stand behind the point. -/
  precision : UInt16 := 0
  /-- The bits of interest and their labels. -/
  flags : List (UInt8 × String) := []
deriving DecidableEq, Repr

/-- A reason why a descriptor cannot be used. -/
inductive DescriptorFault where
  | zeroLength (start : UInt16)
  | noHistory (start : UInt16)
  | tooWide (start length : UInt16) (format : Format) (limit : Nat)
  | precisionOutOfRange (start precision : UInt16)
deriving DecidableEq, Repr

/-- The wording of a fault. -/
def DescriptorFault.message : DescriptorFault → String
  | zeroLength start => "register " ++ Text.hex 4 start.toNat ++ " has zero length"
  | noHistory start => "register " ++ Text.hex 4 start.toNat ++ " keeps no history"
  | tooWide start length format limit =>
    "register " ++ Text.hex 4 start.toNat ++ " is " ++ toString length.toNat ++ " words wide, "
      ++ format.title ++ " allows " ++ toString limit
  | precisionOutOfRange start precision =>
    "register " ++ Text.hex 4 start.toNat ++ " precision " ++ toString precision.toNat
      ++ " out of range"

namespace Descriptor

/-- The first fixed point precision that is not allowed. -/
def precisionLimit : Nat := 32

/-- The first reason why the descriptor cannot be used. -/
def fault? (descriptor : Descriptor) : Option DescriptorFault :=
  if descriptor.length = 0 then some (.zeroLength descriptor.start)
  else if descriptor.keep = 0 then some (.noHistory descriptor.start)
  else
    match descriptor.format.maxWords.filter (· < descriptor.length.toNat) with
    | some limit =>
      some (.tooWide descriptor.start descriptor.length descriptor.format limit)
    | none =>
      if descriptor.format = .float ∧ precisionLimit ≤ descriptor.precision.toNat then
        some (.precisionOutOfRange descriptor.start descriptor.precision)
      else none

/-- The descriptor can be used. -/
def check (descriptor : Descriptor) : Except DescriptorFault Unit :=
  match descriptor.fault? with
  | some fault => .error fault
  | none => .ok ()

end Descriptor

end Modbus
