import Modbus.Number.Double

/-!
# Short floats

A reading with a fixed binary point is handed on as a short float: 24 bits of significand and an
exponent of two, packed into 32 bits. `Single.ofDouble` casts a long float to the nearest short one,
and `Single.threePlaces` writes one with three decimals. A short float is kept as its bits;
`Single.significand` and `Single.exponent` say which number these denote.
-/

namespace Modbus.Single

/-- The weight of the leading one, which is not stored: `2 ^ 23`. -/
def hiddenBit : Nat := 0x800000

/-- The exponent of the last place of the least numbers. -/
def leastExponent : Int := -149

/-- Beyond all numbers. -/
def infinity : UInt32 := 0x7F800000

/-! ### Casting long floats -/

/-- The exponent of the last place that there is room for: with the leading bit and 23 more, but not
below that of the least numbers. -/
def lastPlace (x : Double) : Int :=
  max (x.exponent + Nat.log2 x.significand - 23) leastExponent

/-- A long float counted in its last place. -/
def scaled (x : Double) : Nat :=
  let shift := x.exponent - lastPlace x
  roundDiv (x.significand * Nat.pow 2 shift.toNat) (Nat.pow 2 (-shift).toNat)

/-- The bits of the short float nearest to a long float, a half going to the even neighbour, or
infinity.

The leading one of a significand is not stored. Adding the significand to the exponent field one
step lower puts it there, and lets a significand that was rounded up to `2 ^ 24` carry into the
exponent. -/
def ofDouble (x : Double) : UInt32 :=
  if x.significand = 0 then 0
  else
    -- `scaled` holds the leading one already, so the field is one less than the biased exponent
    let packed := (lastPlace x - leastExponent).toNat * hiddenBit + scaled x
    if packed < infinity.toNat then UInt32.ofNat packed else infinity

/-! ### Writing -/

/-- The significand that the bits of a finite, not negative short float denote. -/
def significand (bits : UInt32) : Nat :=
  if bits.toNat / hiddenBit = 0 then bits.toNat else hiddenBit + bits.toNat % hiddenBit

/-- The exponent of two that goes with the significand. -/
def exponent (bits : UInt32) : Int :=
  if bits.toNat / hiddenBit = 0 then -149 else (bits.toNat / hiddenBit : Nat) - 150

/-- The number in thousandths, rounded with a half going to the even neighbour. -/
def thousandths (bits : UInt32) : Nat :=
  roundDiv (1000 * significand bits * Nat.pow 2 (exponent bits).toNat)
    (Nat.pow 2 (-exponent bits).toNat)

/-- Thousandths as a decimal with three places. -/
def placesText (n : Nat) : String :=
  let places := toString (n % 1000)
  toString (n / 1000) ++ "." ++ String.ofList (List.replicate (3 - places.length) '0') ++ places

/-- The number with three decimals. -/
def threePlaces (bits : UInt32) : String :=
  placesText (thousandths bits)

end Modbus.Single
