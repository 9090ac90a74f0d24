import Modbus.Json.Number

/-!
# Structured values

A `Json` is a value of a document: the configuration of a register written out, or a document that
has been read as a whole. `Json.insert` keeps the members of an object in the order of their keys,
and `Json.render` writes a value as text.
-/

namespace Modbus

/-- A structured value. Members of an object stand in the order in which they are written. -/
inductive Json where
  | null
  | bool (value : Bool)
  | number (value : Number)
  | text (value : String)
  | array (items : List Json)
  | object (members : List (String × Json))
deriving Repr

namespace Json

/-- A whole number. -/
def nat (n : Nat) : Json :=
  number (.integer n)

/-- A list of members with one more, in ascending order of the keys; the value of a key that is
already there is replaced. -/
def insert (key : String) (value : Json) : List (String × Json) → List (String × Json)
  | [] => [(key, value)]
  | (other, held) :: members =>
    if key < other then (key, value) :: (other, held) :: members
    else if key = other then (key, value) :: members
    else (other, held) :: insert key value members

/-! ### Writing -/

/-- A character of a quoted text as it is written. Quote, backslash and control characters are
escaped. -/
def escape (c : Char) : List Char :=
  match c with
  | '"' => ['\\', '"']
  | '\\' => ['\\', '\\']
  | '\x08' => ['\\', 'b']
  | '\x0c' => ['\\', 'f']
  | '\n' => ['\\', 'n']
  | '\r' => ['\\', 'r']
  | '\t' => ['\\', 't']
  | _ =>
    if c.toNat < 0x20 then
      ['\\', 'u', '0', '0', Nat.digitChar (c.toNat / 16), Nat.digitChar (c.toNat % 16)]
    else [c]

/-- A quoted text. -/
def quote (text : String) : List Char :=
  '"' :: text.toList.flatMap escape ++ ['"']

mutual

/-- A value as text, without blanks. -/
def render : Json → List Char
  | null => ['n', 'u', 'l', 'l']
  | bool true => ['t', 'r', 'u', 'e']
  | bool false => ['f', 'a', 'l', 's', 'e']
  | number n => n.text.toList
  | text s => quote s
  | array [] => ['[', ']']
  | array (item :: items) => '[' :: render item ++ renderItems items
  | object [] => ['\x7b', '\x7d']
  | object ((key, value) :: members) =>
    '\x7b' :: quote key ++ ':' :: render value ++ renderMembers members

/-- Further items of an array and its end. -/
def renderItems : List Json → List Char
  | [] => [']']
  | item :: items => ',' :: render item ++ renderItems items

/-- Further members of an object and its end. -/
def renderMembers : List (String × Json) → List Char
  | [] => ['\x7d']
  | (key, value) :: members => ',' :: quote key ++ ':' :: render value ++ renderMembers members

end

end Json

end Modbus
