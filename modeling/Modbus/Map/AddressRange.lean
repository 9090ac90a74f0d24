import Modbus.Text.Display

/-!
# Ranges of device addresses

An `AddressRange` is a run of device addresses, both ends included. Ranges are ordered by their low
ends first.
-/

namespace Modbus

/-- A run of device addresses, both ends included. -/
structure AddressRange where
  low : UInt8
  high : UInt8
  low_le_high : low ≤ high := by decide
deriving DecidableEq, Repr

namespace AddressRange

/-- The range between two addresses, if they are in order. -/
def ofBounds? (low high : UInt8) : Option AddressRange :=
  if h : low ≤ high then some ⟨low, high, h⟩ else none

/-- The range of one address. -/
def single (address : UInt8) : AddressRange :=
  ⟨address, address, UInt8.le_refl address⟩

/-- The address lies in the range. -/
def contains (range : AddressRange) (address : UInt8) : Bool :=
  range.low ≤ address && address ≤ range.high

/-- The ranges have an address in common. -/
def overlaps (first second : AddressRange) : Bool :=
  first.low ≤ second.high && second.low ≤ first.high

/-- Ranges by their low ends, those with the same low end by their high ends. -/
def order (first second : AddressRange) : Ordering :=
  (compare first.low second.low).then (compare first.high second.high)

/-- The first range does not come after the second. -/
def before (first second : AddressRange) : Bool :=
  (first.order second).isLE

/-- A range in brackets. -/
def text (range : AddressRange) : String :=
  "[" ++ Text.hex 2 range.low.toNat ++ "-" ++ Text.hex 2 range.high.toNat ++ "]"

/-- The wording of the fault that two addresses are not in order. -/
def invalidText (low high : UInt8) : String :=
  "invalid address range " ++ Text.hex 2 low.toNat ++ "-" ++ Text.hex 2 high.toNat

/-- Two addresses bound a range exactly when they are in order. -/
theorem ofBounds?_eq_some_iff {low high : UInt8} {range : AddressRange} :
    ofBounds? low high = some range ↔ range.low = low ∧ range.high = high := by
  unfold ofBounds?
  constructor
  · intro h
    split at h
    · cases h; exact ⟨rfl, rfl⟩
    · cases h
  · rintro ⟨rfl, rfl⟩
    simp [range.low_le_high]

/-- The bounds of a range bound that range. -/
@[simp] theorem ofBounds?_bounds (range : AddressRange) :
    ofBounds? range.low range.high = some range :=
  ofBounds?_eq_some_iff.mpr ⟨rfl, rfl⟩

end AddressRange

end Modbus
