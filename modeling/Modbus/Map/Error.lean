import Modbus.Config.Fault
import Modbus.Register.Descriptor

/-!
# What can go wrong with maps

A `ConfigError` is why a map of a kind of devices is not taken in, a `LookupError` what there is no
map or no register for.
-/

namespace Modbus

/-- Why a map is not taken in. -/
inductive ConfigError where
  | invalidRange (low high : UInt8)
  /-- A descriptor cannot be used; the map is named if it is known. -/
  | descriptor (map : Option String) (fault : DescriptorFault)
  | duplicateRegister (map : String) (register : UInt16)
  | overlap (name : String) (range : AddressRange) (otherName : String) (other : AddressRange)
  /-- What is wrong with a document. -/
  | document (source : String) (fault : Fault)
  /-- A file or a directory cannot be read. -/
  | unreadable (source : String)
deriving DecidableEq, Repr

namespace ConfigError

/-- The reason in words. -/
def reason : ConfigError → String
  | invalidRange low high => AddressRange.invalidText low high
  | descriptor none fault => fault.message
  | descriptor (some map) fault => map ++ ": " ++ fault.message
  | duplicateRegister map register =>
    map ++ ": duplicate register " ++ Text.hex 4 register.toNat
  | overlap name range otherName other =>
    name ++ " " ++ range.text ++ " overlaps " ++ otherName ++ " " ++ other.text
  | document source fault => source ++ ": " ++ fault.message
  | unreadable source => source ++ ": IO"

/-- The wording of the error. -/
def message (error : ConfigError) : String :=
  "CONFIG ERROR: " ++ error.reason

end ConfigError

/-- What there is nothing for. -/
inductive LookupError where
  | addressNotFound (address : UInt8)
  | registerNotFound (register : UInt16)
deriving DecidableEq, Repr

/-- The wording of a failed look-up. -/
def LookupError.message : LookupError → String
  | addressNotFound address => "NO REGISTER MAP FOR ADDRESS " ++ Text.hex 2 address.toNat
  | registerNotFound register =>
    "REGISTER " ++ Text.hex 4 register.toNat ++ " NOT IN REGISTER MAP"

end Modbus
