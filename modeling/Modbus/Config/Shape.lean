import Modbus.Config.Fault

/-!
# Shapes of a document

A `Shape` says what a part of a configuration document has to look like: a number of some width, a
text, a list, a record of named fields. `Shape.Val` is the type of what such a part holds,
`Shape.conform` reads a part that has the shape, and `Shape.toJson` writes one.

A record is an object with its fields in any order, or an array of them in the order of the shape.
Fields may have a value that counts when they are left out. Fields that the shape does not know are
skipped.

Documents are read from two sources, which differ where a document is wrong. A text is read as it
comes: a field met twice is a fault, an item too many is bad form. A value has no field twice, its
fields come in the order of their keys, and an item too many is a wrong length.
-/

namespace Modbus

/-- Where a document comes from. -/
inductive Source where
  /-- A text, read as it comes. -/
  | streamed
  /-- A value that has been read as a whole. -/
  | parsed
deriving DecidableEq, Repr

mutual

/-- What a part of a document has to look like. -/
inductive Shape where
  | uint8
  | uint16
  | uint32
  | int32
  | boolean
  | text
  | format
  | addressRange
  /-- Null stands for nothing. -/
  | optional (shape : Shape)
  | list (shape : Shape)
  | pair (first second : Shape)
  | record (name : String) (fields : Fields)

/-- The fields of a record, each with its name and shape and with the value that counts when it is
left out. -/
inductive Fields where
  | nil
  | cons (name : String) (shape : Shape) (default : Option Json) (fields : Fields)

end

mutual

/-- What a part of a document of this shape holds. -/
@[reducible] def Shape.Val : Shape → Type
  | .uint8 => UInt8
  | .uint16 => UInt16
  | .uint32 => UInt32
  | .int32 => Int32
  | .boolean => Bool
  | .text => String
  | .format => Format
  | .addressRange => AddressRange
  | .optional shape => Option shape.Val
  | .list shape => List shape.Val
  | .pair first second => first.Val × second.Val
  | .record _ fields => fields.Val

/-- What the fields of a record hold. -/
@[reducible] def Fields.Val : Fields → Type
  | .nil => Unit
  | .cons _ shape _ fields => shape.Val × fields.Val

end

/-- What has been read of the fields of a record. -/
@[reducible] def Fields.Slots : Fields → Type
  | .nil => Unit
  | .cons _ shape _ fields => Option shape.Val × fields.Slots

/-- Nothing has been read. -/
def Fields.noSlots : (fields : Fields) → fields.Slots
  | .nil => ()
  | .cons _ _ _ fields => (none, fields.noSlots)

/-- How many fields there are. -/
def Fields.count : Fields → Nat
  | .nil => 0
  | .cons _ _ _ fields => fields.count + 1

/-! ### Parts that hold no other parts -/

/-- A part of a document that is something else than it should be. -/
def mismatch {α : Type} (wanted : String) (doc : Doc) : Except Fault α :=
  match doc.found? with
  | some found => .error (.invalidType found wanted)
  | none => .error .malformed

/-- A whole number within bounds. -/
def conformInteger (wanted : String) (least most : Int) : Doc → Except Fault Int
  | .number (some (.integer n)) =>
    if least ≤ n ∧ n ≤ most then .ok n else .error (.integerOutOfRange n wanted)
  | doc => mismatch wanted doc

/-- A yes or no. -/
def conformBoolean : Doc → Except Fault Bool
  | .bool value => .ok value
  | doc => mismatch "a boolean" doc

/-- A text. -/
def conformText : Doc → Except Fault String
  | .text (some value) => .ok value
  | doc => mismatch "a string" doc

/-- The format of a name. -/
def conformVariant (name : String) : Except Fault Format :=
  match Format.ofName? name with
  | some format => .ok format
  | none => .error (.unknownVariant name)

/-- Null. -/
def conformUnit : Doc → Except Fault Unit
  | .null => .ok ()
  | doc => mismatch "unit" doc

/-- A format: its name, or an object whose one key is its name and whose value is null. -/
def conformFormat (source : Source) (doc : Doc) : Except Fault Format :=
  match source, doc with
  | _, .text (some name) => conformVariant name
  | .streamed, .object (.cons (some key) value members) => do
    -- the key is judged before its value is reached
    let format ← conformVariant key
    conformUnit value
    match members with
    | .closed => return format
    | _ => throw .malformed
  | .streamed, _ => throw .malformed
  | .parsed, .object (.cons (some key) value .closed) => do
    -- here the members have been counted already
    let format ← conformVariant key
    conformUnit value
    return format
  | .parsed, .object _ => throw .notSingleKey
  | .parsed, doc => mismatch "string or map" doc

/-! ### Arrays and objects -/

/-- All items of an array. -/
def Items.each {α : Type} (read : Doc → Except Fault α) : Items → Except Fault (List α)
  | .closed => .ok []
  | .broken => .error .malformed
  | .cons item items => do
    let value ← read item
    let values ← items.each read
    return value :: values

/-- An array of `total` items ends here. -/
def Items.finish (source : Source) (total : Nat) : Items → Except Fault Unit
  | .closed => .ok ()
  | .broken => .error .malformed
  | .cons _ _ =>
    match source with
    | .streamed => .error .malformed
    | .parsed => .error (.invalidLength total "fewer elements in array")

/-- The wording of an array of two items. -/
def pairText : String := "a tuple of size 2"

/-- An array of two items. -/
def conformPair {α β : Type} (source : Source) (readFirst : Doc → Except Fault α)
    (readSecond : Doc → Except Fault β) : Doc → Except Fault (α × β)
  | .array items =>
    match items with
    | .closed => .error (.invalidLength 0 pairText)
    | .broken => .error .malformed
    | .cons item rest => do
      let first ← readFirst item
      match rest with
      | .closed => throw (.invalidLength 1 pairText)
      | .broken => throw .malformed
      | .cons item rest => do
        let second ← readSecond item
        rest.finish source items.length
        return (first, second)
  | doc => mismatch pairText doc

/-- A part of a document that may be null. -/
def conformOptional {α : Type} (read : Doc → Except Fault α) : Doc → Except Fault (Option α)
  | .null => .ok none
  | doc => return some (← read doc)

/-- An array of any number of items. -/
def conformList {α : Type} (read : Doc → Except Fault α) : Doc → Except Fault (List α)
  | .array items => items.each read
  | doc => mismatch "a sequence" doc

/-- A byte. -/
def conformByte (doc : Doc) : Except Fault UInt8 :=
  return UInt8.ofNat (← conformInteger "u8" 0 255 doc).toNat

/-- A range: its two ends, in order. -/
def conformRange (source : Source) (doc : Doc) : Except Fault AddressRange := do
  let (low, high) ← conformPair source conformByte conformByte doc
  match AddressRange.ofBounds? low high with
  | some range => return range
  | none => throw (.badRange low high)

/-- The members of an object, each put to what was read before it. -/
def Members.collect {σ : Type} (put : String → Doc → σ → Except Fault σ) :
    Members → σ → Except Fault σ
  | .closed, state => .ok state
  | .broken, _ => .error .malformed
  | .cons none _ _, _ => .error .malformed
  | .cons (some key) value members, state => do
    let state ← put key value state
    members.collect put state

/-! ### Reading by a shape -/

mutual

/-- What a part of a document holds, if it has the shape. -/
def Shape.conform (source : Source) : (shape : Shape) → Doc → Except Fault shape.Val
  | .uint8, doc => conformByte doc
  | .uint16, doc => return UInt16.ofNat (← conformInteger "u16" 0 65535 doc).toNat
  | .uint32, doc => return UInt32.ofNat (← conformInteger "u32" 0 4294967295 doc).toNat
  | .int32, doc => return Int32.ofInt (← conformInteger "i32" (-2147483648) 2147483647 doc)
  | .boolean, doc => conformBoolean doc
  | .text, doc => conformText doc
  | .format, doc => conformFormat source doc
  | .addressRange, doc => conformRange source doc
  | .optional shape, doc => conformOptional (fun doc => shape.conform source doc) doc
  | .list shape, doc => conformList (fun doc => shape.conform source doc) doc
  | .pair first second, doc =>
    conformPair source (fun doc => first.conform source doc) (fun doc => second.conform source doc)
      doc
  | .record name fields, doc =>
    match doc with
    | .array items => do
      let (values, rest) ← fields.conformItems source name fields.count 0 items
      -- items too many matter only once all fields are right
      rest.finish source items.length
      return values
    | .object members => do
      let slots ← members.collect (fun key value slots => fields.put source key value slots)
        fields.noSlots
      fields.fill source slots
    | doc => mismatch ("struct " ++ name) doc

/-- The fields of a record written as an array, from the one numbered `index` on, and the items
behind them. -/
def Fields.conformItems (source : Source) (name : String) (total : Nat) :
    (fields : Fields) → (index : Nat) → Items → Except Fault (fields.Val × Items)
  | .nil, _, items => .ok ((), items)
  | .cons _ shape _ fields, index, .cons item items => do
    let value ← shape.conform source item
    let (values, rest) ← fields.conformItems source name total (index + 1) items
    return ((value, values), rest)
  | .cons _ shape (some default) fields, index, .closed => do
    let value ← shape.conform source (.ofJson default)
    let (values, rest) ← fields.conformItems source name total (index + 1) .closed
    return ((value, values), rest)
  | .cons _ _ none _, index, .closed =>
    .error (.invalidLength index
      ("struct " ++ name ++ " with " ++ toString total ++ " elements"))
  | .cons _ _ _ _, _, .broken => .error .malformed

/-- One member of an object put to what was read before it. A member that is no field is skipped. -/
def Fields.put (source : Source) :
    (fields : Fields) → String → Doc → fields.Slots → Except Fault fields.Slots
  | .nil, _, value, () => if value.isWhole then .ok () else .error .malformed
  | .cons name shape _ fields, key, value, (slot, slots) =>
    if key = name then
      -- a second field of a name is refused before its value is looked at
      if slot.isSome then .error (.duplicateField name)
      else do
        let held ← shape.conform source value
        return (some held, slots)
    else do
      let slots ← fields.put source key value slots
      return (slot, slots)

/-- What the fields hold at the end of an object. -/
def Fields.fill (source : Source) : (fields : Fields) → fields.Slots → Except Fault fields.Val
  | .nil, () => .ok ()
  | .cons _ _ _ fields, (some value, slots) => do
    let values ← fields.fill source slots
    return (value, values)
  | .cons _ shape (some default) fields, (none, slots) => do
    let value ← shape.conform source (.ofJson default)
    let values ← fields.fill source slots
    return (value, values)
  | .cons name _ none _, (none, _) => .error (.missingField name)

end

/-! ### Writing by a shape -/

mutual

/-- What a part of a document of this shape holds, written out. -/
def Shape.toJson : (shape : Shape) → shape.Val → Json
  | .uint8, n => .nat n.toNat
  | .uint16, n => .nat n.toNat
  | .uint32, n => .nat n.toNat
  | .int32, n => .number (.integer n.toInt)
  | .boolean, value => .bool value
  | .text, value => .text value
  | .format, format => .text format.name
  | .addressRange, range => .array [.nat range.low.toNat, .nat range.high.toNat]
  | .optional _, none => .null
  | .optional shape, some value => shape.toJson value
  | .list shape, values => .array (values.map fun value => shape.toJson value)
  | .pair first second, (a, b) => .array [first.toJson a, second.toJson b]
  | .record _ fields, values => .object (fields.toMembers values)

/-- The members of a record, in the order of the shape. -/
def Fields.toMembers : (fields : Fields) → fields.Val → List (String × Json)
  | .nil, () => []
  | .cons name shape _ fields, (value, values) =>
    (name, shape.toJson value) :: fields.toMembers values

end

end Modbus
