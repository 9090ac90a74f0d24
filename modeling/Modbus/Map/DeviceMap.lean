import Modbus.Config.Form
import Modbus.Map.Error
import Modbus.Register.History
import Modbus.Table

/-!
# Maps of devices

A `DeviceMap` holds all that is known about a kind of device: the addresses at which such devices
are, and their registers. `DeviceMap.insert` adds a register, `DeviceMap.ofConfig` makes the map of
a document, and `DeviceMap.check` makes sure that every register can be used.
-/

namespace Modbus

/-- What is known about a kind of device. -/
structure DeviceMap where
  range : AddressRange
  name : String
  /-- The register that is read to find a device. -/
  probe : UInt16
  defaultBaud : UInt32 := 19200
  preferredBaud : UInt32 := 19200
  handlers : List Handler := []
  registers : Table UInt16 Descriptor := {}

namespace DeviceMap

/-- The map with a register under an address, whatever was there before. -/
def setRegister (map : DeviceMap) (address : UInt16) (descriptor : Descriptor) : DeviceMap :=
  { map with registers := map.registers.insert address descriptor }

/-- The map with one more register that can be used, under the address of its first word. -/
def insert (map : DeviceMap) (descriptor : Descriptor) : Except ConfigError DeviceMap :=
  match descriptor.fault? with
  | some fault => .error (.descriptor none fault)
  | none =>
    match map.registers.find? descriptor.start with
    | some _ => .error (.duplicateRegister map.name descriptor.start)
    | none => .ok (map.setRegister descriptor.start descriptor)

/-- The map with more registers, up to the first that cannot be added. -/
def insertAll (map : DeviceMap) (descriptors : List Descriptor) : Except ConfigError DeviceMap :=
  descriptors.foldlM insert map

/-- The map of a document. -/
def ofConfig (config : MapConfig) : Except ConfigError DeviceMap :=
  insertAll {
    range := config.range
    name := config.name
    probe := config.probe
    defaultBaud := config.defaultBaud
    preferredBaud := config.preferredBaud.getD config.defaultBaud
    handlers := config.handlers } config.registers

/-- The register at an address. -/
def register (map : DeviceMap) (address : UInt16) : Except LookupError Descriptor :=
  match map.registers.find? address with
  | some descriptor => .ok descriptor
  | none => .error (.registerNotFound address)

/-- The registers in the order of their addresses. -/
def descriptors (map : DeviceMap) : List Descriptor :=
  map.registers.values

/-- An empty history for every register. -/
def histories (map : DeviceMap) : Except Violation (List History) :=
  map.descriptors.mapM History.ofDescriptor

/-- Every register can be used. -/
def check (map : DeviceMap) : Except ConfigError Unit :=
  match map.descriptors.findSome? Descriptor.fault? with
  | some fault => .error (.descriptor (some map.name) fault)
  | none => .ok ()

/-- The map on a line. -/
def text (map : DeviceMap) : String :=
  map.name ++ " " ++ map.range.text ++ " probe=" ++ Text.hex 4 map.probe.toNat ++ " baud="
    ++ toString map.defaultBaud.toNat ++ "/" ++ toString map.preferredBaud.toNat ++ " registers="
    ++ toString map.registers.size ++ " handlers=" ++ toString map.handlers.length ++ "\n"

end DeviceMap

end Modbus
