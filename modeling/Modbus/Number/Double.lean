import Modbus.Number.Rounding

/-!
# Long floats

Numbers with a fraction or an exponent, and whole numbers that are too long, are kept as long
floats: 53 bits of significand and an exponent of two. `Double.round` finds the one nearest to a
quotient, `Double.mul` and `Double.div` round the exact product and quotient once.

`Double.shortest` is the decimal with the fewest digits that still lies in the interval of numbers
rounded to a long float. Decimals on a coarser grid have fewer digits, so it is found on the
coarsest grid of powers of ten that meets the interval.
-/

namespace Modbus

/-- A finite long float without its sign: `significand * 2 ^ exponent`. -/
structure Double where
  significand : Nat
  exponent : Int
deriving DecidableEq, Repr

namespace Double

/-- The weight of the leading bit of a significand: `2 ^ 52`. -/
def leadingBit : Nat := 0x10000000000000

/-- The least exponent. -/
def leastExponent : Int := -1074

/-- The greatest exponent. -/
def greatestExponent : Int := 971

/-- Zero. -/
def zero : Double := ⟨0, leastExponent⟩

/-- The exponent of the leading bit of a quotient of positive numbers. -/
def leading (num den : Nat) : Int :=
  let guess : Int := (Nat.log2 num : Int) - Nat.log2 den
  if den * Nat.pow 2 guess.toNat ≤ num * Nat.pow 2 (-guess).toNat then guess else guess - 1

/-- The long float nearest to `num / den`, a half going to the even neighbour; none if that is
beyond the greatest one. -/
def round (num den : Nat) : Option Double :=
  if num = 0 then some zero
  else
    let normal := leading num den - 52
    let exponent := if normal < leastExponent then leastExponent else normal
    let significand :=
      roundDiv (num * Nat.pow 2 (-exponent).toNat) (den * Nat.pow 2 exponent.toNat)
    -- rounding up may need one bit more than there is room for
    let rounded : Double :=
      if significand = 2 * leadingBit then ⟨leadingBit, exponent + 1⟩ else ⟨significand, exponent⟩
    if greatestExponent < rounded.exponent then none else some rounded

/-- A product, rounded once. -/
def mul (x y : Double) : Option Double :=
  let exponent := x.exponent + y.exponent
  round (x.significand * y.significand * Nat.pow 2 exponent.toNat) (Nat.pow 2 (-exponent).toNat)

/-- A quotient, rounded once. -/
def div (x y : Double) : Option Double :=
  let exponent := x.exponent - y.exponent
  round (x.significand * Nat.pow 2 exponent.toNat) (y.significand * Nat.pow 2 (-exponent).toNat)

/-! ### The shortest decimal -/

/-- A decimal: `digits * 10 ^ exponent`. -/
structure Decimal where
  digits : Nat
  exponent : Int
deriving DecidableEq, Repr

/-- The decimal on the grid of `10 ^ grid` that is nearest to a long float, if one lies in the
interval that is rounded to it. The ends of the interval belong to it when the significand is
even; below a power of two the interval is half as wide. -/
def onGrid? (x : Double) (grid : Int) : Option Decimal :=
  -- all is measured in quarters of the last place, so that both ends are whole numbers
  let scale := Nat.pow 2 x.exponent.toNat * Nat.pow 10 (-grid).toNat
  let unit := 4 * (Nat.pow 10 grid.toNat * Nat.pow 2 (-x.exponent).toNat)
  let middle := 4 * x.significand * scale
  let below := if x.significand = leadingBit ∧ leastExponent < x.exponent then 1 else 2
  let low := (4 * x.significand - below) * scale
  let high := (4 * x.significand + 2) * scale
  let inside (n : Nat) : Bool :=
    if x.significand % 2 = 0 then low ≤ n * unit && n * unit ≤ high
    else low < n * unit && n * unit < high
  let nearest := roundDiv middle unit
  let floor := middle / unit
  if inside nearest then some ⟨nearest, grid⟩
  else if inside floor then some ⟨floor, grid⟩
  else if inside (floor + 1) then some ⟨floor + 1, grid⟩
  else none

/-- The decimal with the fewest digits that is read as this long float, and of those the nearest
to it. -/
def shortest (x : Double) : Decimal :=
  if x.significand = 0 then ⟨0, 0⟩
  else ((List.range 640).findSome? fun (n : Nat) => x.onGrid? (309 - n)).getD ⟨0, 0⟩

/-- A long float as text. Decimals whose first digit stands for `10 ^ -5` up to `10 ^ 15` are
written out, with at least one place after the point; others have an exponent behind one leading
digit. -/
def text (x : Double) : String :=
  let decimal := x.shortest
  let digits := Nat.toDigits 10 decimal.digits
  let point : Int := digits.length + decimal.exponent
  if -4 ≤ point ∧ point ≤ 16 then
    if point ≤ 0 then
      "0." ++ String.ofList (List.replicate (-point).toNat '0' ++ digits)
    else if 0 ≤ decimal.exponent then
      String.ofList (digits ++ List.replicate decimal.exponent.toNat '0') ++ ".0"
    else
      String.ofList (digits.take point.toNat) ++ "." ++ String.ofList (digits.drop point.toNat)
  else
    let fraction := digits.drop 1
    String.ofList (digits.take 1)
      ++ (if fraction.isEmpty then "" else "." ++ String.ofList fraction)
      ++ (if 0 < point then "e+" else "e-") ++ toString (point - 1).natAbs

end Double

end Modbus
