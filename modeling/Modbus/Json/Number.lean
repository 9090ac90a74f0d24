import Modbus.Number.Double

/-!
# Numbers of a document

A `Numeral` is a number as it is written, a `Number` what it stands for. Whole numbers of 64 bits
stay whole; everything else is a long float: a fraction or an exponent, a longer number, and minus
zero. `Numeral.value` finds the number. It takes the digits as a whole number as long as they fit
64 bits and scales that by one power of ten, so a number can be off by a last bit; what is beyond
the greatest long float has no value.
-/

namespace Modbus

/-- A number of a document. -/
inductive Number where
  | integer (n : Int)
  | float (negative : Bool) (magnitude : Double)
deriving DecidableEq, Repr

/-- A number as it is written: sign, digits, digits after a point, and sign and digits of an
exponent. -/
structure Numeral where
  negative : Bool
  whole : List Char
  fraction : Option (List Char)
  exponent : Option (Option Char × List Char)
deriving DecidableEq, Repr

namespace Numeral

/-- How many characters the number takes. -/
def length (numeral : Numeral) : Nat :=
  (if numeral.negative then 1 else 0) + numeral.whole.length
    + (match numeral.fraction with
      | some digits => 1 + digits.length
      | none => 0)
    + (match numeral.exponent with
      | some (sign, digits) => 1 + (if sign.isSome then 1 else 0) + digits.length
      | none => 0)

/-- The digits in front of a text. -/
def digits (text : List Char) : List Char :=
  text.takeWhile Char.isDigit

/-- The digits behind a point in front of a text; a point without digits is no number. -/
def scanFraction : List Char → Option (Option (List Char))
  | '.' :: text => if (digits text).isEmpty then none else some (some (digits text))
  | _ => some none

/-- The sign and the digits of an exponent in front of a text; a mark without digits is no
number. -/
def scanExponent : List Char → Option (Option (Option Char × List Char))
  | mark :: text =>
    if mark = 'e' ∨ mark = 'E' then
      let sign := text.head?.filter fun c => c = '+' ∨ c = '-'
      let text := if sign.isSome then text.drop 1 else text
      if (digits text).isEmpty then none else some (some (sign, digits text))
    else some none
  | [] => some none

/-- The number in front of a text. Only zero itself starts with a zero. -/
def scan? (text : List Char) : Option Numeral := do
  let negative := text.head? = some '-'
  let text := if negative then text.drop 1 else text
  let whole := digits text
  if whole.isEmpty ∨ (whole.head? = some '0' ∧ 1 < whole.length) then none
  else
    let text := text.drop whole.length
    let fraction ← scanFraction text
    let text := match fraction with
      | some digits => text.drop (1 + digits.length)
      | none => text
    let exponent ← scanExponent text
    return { negative, whole, fraction, exponent }

/-- The value of a digit. -/
def digitValue (digit : Char) : Nat :=
  digit.toNat - '0'.toNat

/-- The first number that does not fit 64 bits. -/
def wordLimit : Nat := 0x10000000000000000

/-- Digits behind those of a number, as long as the whole fits 64 bits, and the digits that are
left over. -/
def absorb (number : Nat) : List Char → Nat × List Char
  | [] => (number, [])
  | digit :: digits =>
    let longer := 10 * number + digitValue digit
    if longer < wordLimit then absorb longer digits else (number, digit :: digits)

/-- The number that digits spell. -/
def naturalOf (digits : List Char) : Nat :=
  digits.foldl (fun number digit => 10 * number + digitValue digit) 0

/-- Division by a power of ten, in steps of `10 ^ 308`. -/
def shrink (x : Double) (places : Nat) : Option Double :=
  if h : places ≤ 308 then do
    x.div (← Double.round (Nat.pow 10 places) 1)
  else if x.significand = 0 then some x
  else do
    let smaller ← x.div (← Double.round (Nat.pow 10 308) 1)
    shrink smaller (places - 308)
termination_by places
decreasing_by omega

/-- A whole number times a power of ten. -/
def scale (n : Nat) (exponent : Int) : Option Double := do
  let x ← Double.round n 1
  if 0 ≤ exponent then
    if exponent ≤ 308 then x.mul (← Double.round (Nat.pow 10 exponent.toNat) 1)
    else if n = 0 then some x
    else none
  else shrink x (-exponent).toNat

/-- The exponent as a number. -/
def power (numeral : Numeral) : Int :=
  match numeral.exponent with
  | none => 0
  | some (sign, digits) => if sign = some '-' then -(naturalOf digits : Int) else naturalOf digits

/-- What the number stands for, if that is in range. -/
def value (numeral : Numeral) : Option Number :=
  let (number, longer) := absorb 0 numeral.whole
  if longer.isEmpty ∧ numeral.fraction = none ∧ numeral.exponent = none then
    -- minus zero and what is below the least whole number of 64 bits become floats
    if !numeral.negative then some (.integer number)
    else if number = 0 ∨ wordLimit / 2 < number then (Double.round number 1).map (.float true)
    else some (.integer (-(number : Int)))
  else
    let fraction := numeral.fraction.getD []
    -- digits of the fraction that do not fit any more are dropped, digits before the point are not
    let (number, left) := absorb number fraction
    let places : Int := (fraction.length : Int) - left.length
    (scale number (longer.length - places + numeral.power)).map (.float numeral.negative)

end Numeral

/-- A number as text. -/
def Number.text : Number → String
  | .integer n => toString n
  | .float negative magnitude => (if negative then "-" else "") ++ magnitude.text

end Modbus
