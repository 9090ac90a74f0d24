import Modbus.Config.Shape
import Modbus.Json.Reader
import Modbus.Register.Descriptor

/-!
# What documents hold

`Configurable` types are those that are written in documents: each has a shape, and its values are
what parts of that shape hold. `Configurable.ofText` reads a value from a text as it comes,
`Configurable.ofJson` from a value that has been read as a whole, and `Configurable.toJson` writes
one. Formats, ranges, descriptors, periodic actions and the maps of devices are configurable.
-/

namespace Modbus

/-- Types that are written in documents. -/
class Configurable (α : Type) where
  shape : Shape
  ofVal : shape.Val → α
  toVal : α → shape.Val
  ofVal_toVal : ∀ a, ofVal (toVal a) = a := by intro a; rfl

namespace Configurable

variable {α : Type} [Configurable α]

/-- A value read from a text that holds it and nothing else. What stands behind the value is looked
at last. -/
def ofText (text : String) : Except Fault α := do
  let document := Document.ofText text
  let value ← (shape α).conform .streamed document.root
  if document.trailing then
    throw .malformed
  return ofVal value

/-- A value read from a document that has been read as a whole. -/
def ofJson (json : Json) : Except Fault α := do
  return ofVal (← (shape α).conform .parsed (.ofJson json))

/-- A text read as a whole. -/
def jsonOfText (text : String) : Except Fault Json :=
  match (Document.ofText text).json? with
  | some json => .ok json
  | none => .error .malformed

/-- A value written out. -/
def toJson (a : α) : Json :=
  (shape α).toJson (toVal a)

end Configurable

/-! ### Formats and ranges -/

instance : Configurable Format where
  shape := .format
  ofVal format := format
  toVal format := format

instance : Configurable AddressRange where
  shape := .addressRange
  ofVal range := range
  toVal range := range

/-! ### Descriptors -/

/-- The fields of a descriptor. -/
@[reducible] def Descriptor.fields : Fields :=
  .cons "begin" .uint16 none <|
  .cons "length" .uint16 none <|
  .cons "name" .text none <|
  .cons "keep" .uint16 (some (.nat 1)) <|
  .cons "changes_only" .boolean (some (.bool false)) <|
  .cons "format" .format (some (.text Format.hex.name)) <|
  .cons "precision" .uint16 (some (.nat 0)) <|
  .cons "flags" (.list (.pair .uint8 .text)) (some (.array [])) <|
  .nil

/-- The descriptor of its fields. -/
def Descriptor.ofFields : Descriptor.fields.Val → Descriptor
  | (start, length, name, keep, changesOnly, format, precision, flags, ()) =>
    { start, length, name, keep, changesOnly, format, precision, flags }

/-- The fields of a descriptor's value. -/
def Descriptor.toFields (d : Descriptor) : Descriptor.fields.Val :=
  (d.start, d.length, d.name, d.keep, d.changesOnly, d.format, d.precision, d.flags, ())

instance : Configurable Descriptor where
  shape := .record "RegisterDescriptor" Descriptor.fields
  ofVal := Descriptor.ofFields
  toVal := Descriptor.toFields

/-! ### Periodic actions

A `Handler` writes to a register of a device time and again; a `WriteAction` says what. They are
carried along with the map of a device; carrying them out is left to others. -/

/-- What is written: the output of a command, or a fixed value. -/
structure WriteAction where
  shell : Option String := none
  /-- How the text becomes words. -/
  interpret : Format
  value : Option String := none
deriving DecidableEq, Repr

/-- An action on a register that is taken every `period` seconds. -/
structure Handler where
  register : UInt16
  length : UInt16
  period : Int32
  action : String
  write : WriteAction
deriving DecidableEq, Repr

/-- The fields of what a periodic action writes. -/
@[reducible] def WriteAction.fields : Fields :=
  .cons "shell" (.optional .text) (some .null) <|
  .cons "interpret" .format none <|
  .cons "value" (.optional .text) (some .null) <|
  .nil

/-- What is written, of its fields. -/
def WriteAction.ofFields : WriteAction.fields.Val → WriteAction
  | (shell, interpret, value, ()) => { shell, interpret, value }

/-- The fields of what is written. -/
def WriteAction.toFields (write : WriteAction) : WriteAction.fields.Val :=
  (write.shell, write.interpret, write.value, ())

instance : Configurable WriteAction where
  shape := .record "WriteActionInfo" WriteAction.fields
  ofVal := WriteAction.ofFields
  toVal := WriteAction.toFields

/-- The fields of a periodic action. -/
@[reducible] def Handler.fields : Fields :=
  .cons "reg" .uint16 none <|
  .cons "len" .uint16 none <|
  .cons "period" .int32 none <|
  .cons "action" .text none <|
  .cons "info" (.record "WriteActionInfo" WriteAction.fields) none <|
  .nil

/-- The periodic action of its fields. -/
def Handler.ofFields : Handler.fields.Val → Handler
  | (register, length, period, action, write, ()) =>
    { register, length, period, action, write := WriteAction.ofFields write }

/-- The fields of a periodic action's value. -/
def Handler.toFields (handler : Handler) : Handler.fields.Val :=
  (handler.register, handler.length, handler.period, handler.action, handler.write.toFields, ())

instance : Configurable Handler where
  shape := .record "SpecialHandlerInfo" Handler.fields
  ofVal := Handler.ofFields
  toVal := Handler.toFields

/-! ### Maps -/

/-- The map of a kind of device as a document gives it. -/
structure MapConfig where
  name : String
  range : AddressRange
  /-- The register that is read to find a device. -/
  probe : UInt16
  defaultBaud : UInt32
  /-- The default speed is preferred if none is given. -/
  preferredBaud : Option UInt32 := none
  handlers : List Handler := []
  registers : List Descriptor
deriving DecidableEq, Repr

/-- The fields of a map. -/
@[reducible] def MapConfig.fields : Fields :=
  .cons "name" .text none <|
  .cons "address_range" .addressRange none <|
  .cons "probe_register" .uint16 none <|
  .cons "default_baudrate" .uint32 none <|
  .cons "preferred_baudrate" (.optional .uint32) (some .null) <|
  .cons "special_handlers" (.list (.record "SpecialHandlerInfo" Handler.fields))
    (some (.array [])) <|
  .cons "registers" (.list (.record "RegisterDescriptor" Descriptor.fields)) none <|
  .nil

/-- The map of its fields. -/
def MapConfig.ofFields : MapConfig.fields.Val → MapConfig
  | (name, range, probe, defaultBaud, preferredBaud, handlers, registers, ()) =>
    { name, range, probe, defaultBaud, preferredBaud, handlers := handlers.map Handler.ofFields,
      registers := registers.map Descriptor.ofFields }

/-- The fields of a map's value. -/
def MapConfig.toFields (config : MapConfig) : MapConfig.fields.Val :=
  (config.name, config.range, config.probe, config.defaultBaud, config.preferredBaud,
    config.handlers.map Handler.toFields, config.registers.map Descriptor.toFields, ())

instance : Configurable MapConfig where
  shape := .record "RegisterMapConfig" MapConfig.fields
  ofVal := MapConfig.ofFields
  toVal := MapConfig.toFields
  ofVal_toVal config := by
    have h : ∀ d : Descriptor, Descriptor.ofFields d.toFields = d := fun _ => rfl
    have h' : ∀ d : Handler, Handler.ofFields d.toFields = d := fun _ => rfl
    simp [MapConfig.ofFields, MapConfig.toFields, Function.comp_def, h, h']

end Modbus
