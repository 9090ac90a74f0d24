import Modbus.Json.Basic

/-!
# Documents

A `Doc` is what a text holds as far as it can be read. Where it breaks off, the value, the array or
the object there is `broken`, and all that stands before it is kept: whoever goes through a document
in order meets what is wrong with its contents and what is wrong with its form in the order in which
they stand.

`Doc.json?` is the value of a document that is whole, and `Doc.ofJson` the document of a value.
-/

namespace Modbus

mutual

/-- A value of a document, as far as it can be read. -/
inductive Doc where
  | null
  | bool (value : Bool)
  /-- A number, without a value if it is out of range. -/
  | number (value : Option Number)
  /-- A text, without a value if half of a surrogate pair stands alone in it. -/
  | text (value : Option String)
  | array (items : Items)
  | object (members : Members)
  /-- No value can be read. -/
  | broken
deriving Repr

/-- The items of an array, as far as they can be read. -/
inductive Items where
  | closed
  | broken
  | cons (item : Doc) (items : Items)
deriving Repr

/-- The members of an object, as far as they can be read. -/
inductive Members where
  | closed
  | broken
  | cons (key : Option String) (value : Doc) (members : Members)
deriving Repr

end

/-- A text read as one value. -/
structure Document where
  root : Doc
  /-- More stands behind the value. -/
  trailing : Bool := false
deriving Repr

/-! ### Documents and values -/

/-- The deepest nesting of arrays and objects in a value. -/
def maxDepth : Nat := 127

mutual

/-- The value of a document that is whole and nests no deeper than `depth`. The members of an object
are put in order of their keys, and the last of several values of a key counts. -/
def Doc.jsonWithin? (depth : Nat) : Doc → Option Json
  | .null => some .null
  | .bool value => some (.bool value)
  | .number value => value.map .number
  | .text value => value.map .text
  | .array items =>
    if depth = 0 then none
    else do return .array (← items.jsonsWithin? (depth - 1))
  | .object members =>
    if depth = 0 then none
    else do return .object (← members.jsonsWithin? (depth - 1) [])
  | .broken => none

/-- The values of the items of an array that is whole. -/
def Items.jsonsWithin? (depth : Nat) : Items → Option (List Json)
  | .closed => some []
  | .broken => none
  | .cons item items => do
    let value ← item.jsonWithin? depth
    let values ← items.jsonsWithin? depth
    return value :: values

/-- Members in order of their keys with those of an object that is whole. -/
def Members.jsonsWithin? (depth : Nat) :
    Members → List (String × Json) → Option (List (String × Json))
  | .closed, before => some before
  | .broken, _ => none
  | .cons key value members, before => do
    let key ← key
    let value ← value.jsonWithin? depth
    members.jsonsWithin? depth (Json.insert key value before)

end

/-- The value of a document that is whole. -/
def Doc.json? (doc : Doc) : Option Json :=
  doc.jsonWithin? maxDepth

/-- The value of a text that is one value and nothing else. -/
def Document.json? (document : Document) : Option Json :=
  if document.trailing then none else document.root.json?

mutual

/-- The document of a value. -/
def Doc.ofJson : Json → Doc
  | .null => .null
  | .bool value => .bool value
  | .number value => .number (some value)
  | .text value => .text (some value)
  | .array items => .array (Items.ofJsons items)
  | .object members => .object (Members.ofJsons members)

/-- The items of an array. -/
def Items.ofJsons : List Json → Items
  | [] => .closed
  | item :: items => .cons (Doc.ofJson item) (Items.ofJsons items)

/-- The members of an object. -/
def Members.ofJsons : List (String × Json) → Members
  | [] => .closed
  | (key, value) :: members => .cons (some key) (Doc.ofJson value) (Members.ofJsons members)

end

mutual

/-- The form of a value is right: it does not break off. What its numbers and texts stand for does
not matter, nor how deep it nests. -/
def Doc.isWhole : Doc → Bool
  | .array items => items.isWhole
  | .object members => members.isWhole
  | .broken => false
  | _ => true

/-- The form of all items is right, and the array ends. -/
def Items.isWhole : Items → Bool
  | .closed => true
  | .broken => false
  | .cons item items => item.isWhole && items.isWhole

/-- The form of all members is right, and the object ends. -/
def Members.isWhole : Members → Bool
  | .closed => true
  | .broken => false
  | .cons _ value members => value.isWhole && members.isWhole

end

/-- How many items an array has. -/
def Items.length : Items → Nat
  | .cons _ items => items.length + 1
  | _ => 0

end Modbus
