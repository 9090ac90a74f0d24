/-!
# Formats

A `Format` says how the words of a register are to be understood. Formats have a name in
configuration documents, `Format.name`, which `Format.ofName?` reads back.
-/

namespace Modbus

/-- How the words of a register are understood. -/
inductive Format where
  /-- As bytes. -/
  | hex
  /-- As text. -/
  | string
  /-- As a signed number of 32 bits. -/
  | integer
  /-- As a number with a fixed binary point. -/
  | float
  /-- As bits with labels. -/
  | flags
deriving DecidableEq, Repr

namespace Format

/-- The name of a format in a document. -/
def name : Format → String
  | hex => "HEX"
  | string => "STRING"
  | integer => "INTEGER"
  | float => "FLOAT"
  | flags => "FLAGS"

/-- All formats. -/
def all : List Format := [hex, string, integer, float, flags]

/-- The format of a name. -/
def ofName? (name : String) : Option Format :=
  all.find? fun format => format.name == name

/-- The name of a format in a message. -/
def title : Format → String
  | hex => "Hex"
  | string => "String"
  | integer => "Integer"
  | float => "Float"
  | flags => "Flags"

/-- The most words from which a value of the format can be composed, if there is a limit. -/
def maxWords : Format → Option Nat
  | hex => none
  | string => none
  | integer => some 2
  | float => some 2
  | flags => some 2

/-- A name is read back. -/
@[simp] theorem ofName?_name (format : Format) : ofName? format.name = some format := by
  cases format <;> decide

end Format

end Modbus
