import Modbus.Bytes
import Modbus.Number.Single
import Modbus.Register.Descriptor
import Modbus.Text.Utf8

/-!
# Values of registers

A `Value` is what the words of a register mean in the format of its descriptor, found by
`Value.ofWords` and written by `Value.text`. A `Measurement` is a value and the time at which it was
read.

All numbers are composed from words the same way: the first word is the most significant.
-/

namespace Modbus

/-! ### Broken promises -/

/-- A call that a careful caller does not make. -/
inductive Violation where
  /-- Other than the words of a register were to be interpreted. -/
  | interpretedWidth (start : UInt16) (name : String) (length : Nat)
  /-- Other than the words of a register were to be kept. -/
  | recordedWidth (start : UInt16) (name : String) (length : Nat)
  /-- No words, or more than two, were to be composed. -/
  | uncomposable (count : Nat)
  | precisionOutOfRange (precision : UInt16)
  | noHistory (start : UInt16)
deriving DecidableEq, Repr

/-- The wording of a broken promise. -/
def Violation.message : Violation → String
  | interpretedWidth start name length =>
    "register " ++ Text.hex 4 start.toNat ++ " (" ++ name ++ ") expects " ++ toString length
      ++ " words"
  | recordedWidth start name length =>
    "register " ++ Text.hex 4 start.toNat ++ " (" ++ name ++ ") is " ++ toString length
      ++ " words wide"
  | uncomposable count => toString count ++ " words do not fit a 32-bit value"
  | precisionOutOfRange precision =>
    "float precision " ++ toString precision.toNat ++ " out of range"
  | noHistory start => "register " ++ Text.hex 4 start.toNat ++ " keeps no history"

/-! ### Values -/

/-- What the words of a register mean. -/
inductive Value where
  | hex (bytes : List UInt8)
  | string (text : String)
  | integer (n : Int32)
  /-- A short float, as its bits. -/
  | float (bits : UInt32)
  /-- The state of every bit of interest, with its label. -/
  | flags (states : List (Bool × String))
deriving DecidableEq, Repr

namespace Value

/-- The format of a value. -/
def format : Value → Format
  | hex _ => .hex
  | string _ => .string
  | integer _ => .integer
  | float _ => .float
  | flags _ => .flags

/-! ### Interpreting words -/

/-- The number of one or two words, shifted in one after the other. -/
def compose (words : List UInt16) : Except Violation UInt32 :=
  if words.length = 1 ∨ words.length = 2 then
    .ok (words.foldl (fun bits word => bits <<< 16 ||| word.toUInt32) 0)
  else .error (.uncomposable words.length)

/-- Bytes without the zeros at their end. -/
def trimZeros (bytes : List UInt8) : List UInt8 :=
  (bytes.reverse.dropWhile (· = 0)).reverse

/-- Words as text: zeros at the end only fill up the register. -/
def textOf (words : List UInt16) : String :=
  Utf8.decodeLossy (trimZeros (wordsBytes words))

/-- The short float of a number with so many places behind the binary point. Number and power of two
are divided as long floats, and the quotient is cast. -/
def fixedPoint (n : UInt32) (precision : UInt16) : UInt32 :=
  let quotient : Option Double := do
    let dividend ← Double.round n.toNat 1
    let divisor ← Double.round (1 <<< precision.toUInt32 : UInt32).toNat 1
    dividend.div divisor
  quotient.elim Single.infinity Single.ofDouble

/-- The state of a bit; bits beyond the thirty-second are off. -/
def bitOf (bits : UInt32) (position : UInt8) : Bool :=
  position.toNat < 32 && bits.toNat.testBit position.toNat

/-- The states of the bits of a table, in its order. -/
def flagsOf (bits : UInt32) (table : List (UInt8 × String)) : List (Bool × String) :=
  table.map fun (position, label) => (bitOf bits position, label)

/-- What the words of a register mean in the format of its descriptor. -/
def ofWords (descriptor : Descriptor) (words : List UInt16) : Except Violation Value :=
  if words.length ≠ descriptor.length.toNat then
    .error (.interpretedWidth descriptor.start descriptor.name descriptor.length.toNat)
  else
    match descriptor.format with
    | .hex => .ok (hex (wordsBytes words))
    | .string => .ok (string (textOf words))
    | .integer => do
      let n ← compose words
      return integer n.toInt32
    | .float => do
      -- a precision out of range is met before the words are looked at
      if Descriptor.precisionLimit ≤ descriptor.precision.toNat then
        throw (.precisionOutOfRange descriptor.precision)
      let n ← compose words
      return float (fixedPoint n descriptor.precision)
    | .flags => do
      let bits ← compose words
      return flags (flagsOf bits descriptor.flags)

/-! ### Writing -/

/-- The state of a bit on a line of its own. -/
def flagText (state : Bool × String) : String :=
  "\n*[" ++ (if state.1 then "1" else "0") ++ "] " ++ state.2

/-- A value as text. -/
def text : Value → String
  | hex bytes => "0x" ++ Text.hexBytes bytes
  | string text => text
  | integer n => toString n.toInt
  | float bits => Single.threePlaces bits
  | flags states => String.join (states.map flagText)

end Value

/-- A value and the time at which it was read. -/
structure Measurement where
  time : UInt32
  value : Value
deriving DecidableEq, Repr

namespace Measurement

/-- Words read at a time, interpreted. -/
def ofWords (descriptor : Descriptor) (words : List UInt16) (time : UInt32) :
    Except Violation Measurement := do
  return { time, value := ← Value.ofWords descriptor words }

/-- Words that nothing is known about. -/
def ofRawWords (words : List UInt16) : Measurement :=
  { time := 0, value := .hex (wordsBytes words) }

end Measurement

end Modbus
