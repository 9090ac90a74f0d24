import Modbus.Json.Doc
import Modbus.Map.AddressRange
import Modbus.Register.Format
import Modbus.Text.Display

/-!
# Faults of a document

A `Fault` is the first thing in a document that keeps it from being read as what it should be:
something about its contents, or that it is no document at all. `Fault.message` words it.
-/

namespace Modbus

/-- A value of a document as a message shows it. -/
inductive Found where
  | null
  | bool (value : Bool)
  | number (value : Number)
  | text (value : String)
  | array
  | object
deriving DecidableEq, Repr

/-- What a value of a document is, if that much can be read of it. -/
def Doc.found? : Doc → Option Found
  | .null => some .null
  | .bool value => some (.bool value)
  | .number value => value.map .number
  | .text value => value.map .text
  | .array _ => some .array
  | .object _ => some .object
  | .broken => none

/-- The wording of what was found. -/
def Found.message : Found → String
  | null => "null"
  | bool value => "boolean `" ++ toString value ++ "`"
  | number (.integer n) => "integer `" ++ toString n ++ "`"
  | number value => "floating point `" ++ value.text ++ "`"
  | text value => "string " ++ Text.quoted value
  | array => "sequence"
  | object => "map"

/-- What keeps a document from being read. -/
inductive Fault where
  /-- The text is no document. -/
  | malformed
  | missingField (name : String)
  | duplicateField (name : String)
  | unknownVariant (name : String)
  | invalidType (found : Found) (wanted : String)
  | integerOutOfRange (n : Int) (wanted : String)
  | invalidLength (length : Nat) (wanted : String)
  /-- An object stands for a format but does not have just one member. -/
  | notSingleKey
  | badRange (low high : UInt8)
deriving DecidableEq, Repr

/-- The wording of a fault. -/
def Fault.message : Fault → String
  | malformed => "JSON SYNTAX"
  | missingField name => "missing field `" ++ name ++ "`"
  | duplicateField name => "duplicate field `" ++ name ++ "`"
  | unknownVariant name =>
    "unknown variant `" ++ name ++ "`, expected one of "
      ++ String.intercalate ", " (Format.all.map fun format => "`" ++ format.name ++ "`")
  | invalidType found wanted => "invalid type: " ++ found.message ++ ", expected " ++ wanted
  | integerOutOfRange n wanted =>
    "invalid value: integer `" ++ toString n ++ "`, expected " ++ wanted
  | invalidLength length wanted =>
    "invalid length " ++ toString length ++ ", expected " ++ wanted
  | notSingleKey => "invalid value: map, expected map with a single key"
  | badRange low high => "CONFIG ERROR: " ++ AddressRange.invalidText low high

end Modbus
