import Modbus.Json.Doc
import Modbus.Json.Token

/-!
# Reading documents

A `Reader` takes in the words of a text. It is a machine with one state for every kind of word that
may come next, so each word is looked at once; arrays and objects that are still open wait on a
stack. `Document.ofText` is the document of a text. Every text has one: `Reader.stop` closes what is
open as broken.
-/

namespace Modbus

/-- The items of a list, last one first, in front of others. -/
def Items.prepend (items : Items) : List Doc → Items
  | [] => items
  | item :: before => Items.prepend (.cons item items) before

/-- The members of a list, last one first, in front of others. -/
def Members.prepend (members : Members) : List (Option String × Doc) → Members
  | [] => members
  | (key, value) :: before => Members.prepend (.cons key value members) before

/-- An array or object that is being read, with what it holds so far, last first, and for an object
the key whose value comes next. -/
inductive Enclosing where
  | array (items : List Doc)
  | object (members : List (Option String × Doc)) (key : Option String)

/-- What may come next in a text, inside of which arrays and objects. -/
inductive Reader where
  | nextValue (stack : List Enclosing)
  | itemOrEnd (stack : List Enclosing)
  | keyOrEnd (stack : List Enclosing)
  | nextKey (members : List (Option String × Doc)) (stack : List Enclosing)
  | nextColon (members : List (Option String × Doc)) (key : Option String)
      (stack : List Enclosing)
  | afterItem (items : List Doc) (stack : List Enclosing)
  | afterMember (members : List (Option String × Doc)) (stack : List Enclosing)
  | finished (document : Document)

namespace Reader

/-- The document whose innermost array or object ends with a value, all around it breaking off
there. -/
def unwind (inner : Doc) : List Enclosing → Doc
  | [] => inner
  | .array items :: stack => unwind (.array (Items.broken.prepend (inner :: items))) stack
  | .object members key :: stack =>
    unwind (.object (Members.broken.prepend ((key, inner) :: members))) stack

/-- The document of a text that breaks off where a value should be. -/
def unwindValue : List Enclosing → Doc
  | [] => .broken
  | .array items :: stack => unwind (.array (Items.broken.prepend items)) stack
  | .object members key :: stack =>
    unwind (.object (Members.broken.prepend ((key, .broken) :: members))) stack

/-- The document of a text that ends or breaks off here. -/
def stop : Reader → Document
  | nextValue stack => { root := unwindValue stack }
  | itemOrEnd stack => { root := unwind (.array .broken) stack }
  | keyOrEnd stack => { root := unwind (.object .broken) stack }
  | nextKey members stack => { root := unwind (.object (Members.broken.prepend members)) stack }
  | nextColon members key stack =>
    { root := unwind (.object (Members.broken.prepend ((key, .broken) :: members))) stack }
  | afterItem items stack => { root := unwind (.array (Items.broken.prepend items)) stack }
  | afterMember members stack => { root := unwind (.object (Members.broken.prepend members)) stack }
  | finished document => document

/-- The state behind a value. -/
def complete (value : Doc) : List Enclosing → Reader
  | [] => finished { root := value }
  | .array items :: stack => afterItem (value :: items) stack
  | .object members key :: stack => afterMember ((key, value) :: members) stack

/-- The value of a single word. -/
def scalar? : Token → Option Doc
  | .null => some .null
  | .bool b => some (.bool b)
  | .number n => some (.number n)
  | .text s => some (.text s)
  | _ => none

/-- A word where a value should be. -/
def readValue (stack : List Enclosing) (token : Token) : Reader :=
  match scalar? token with
  | some doc => complete doc stack
  | none =>
    match token with
    | .arrayOpen => itemOrEnd stack
    | .objectOpen => keyOrEnd stack
    | _ => finished (stop (nextValue stack))

/-- The state behind one more word. -/
def step (reader : Reader) (token : Token) : Reader :=
  match reader with
  | nextValue stack => readValue stack token
  | itemOrEnd stack =>
    match token with
    | .arrayClose => complete (.array .closed) stack
    | token => readValue (.array [] :: stack) token
  | keyOrEnd stack =>
    match token with
    | .objectClose => complete (.object .closed) stack
    | .text key => nextColon [] key stack
    | _ => finished reader.stop
  | nextKey members stack =>
    match token with
    | .text key => nextColon members key stack
    | _ => finished reader.stop
  | nextColon members key stack =>
    match token with
    | .colon => nextValue (.object members key :: stack)
    | _ => finished reader.stop
  | afterItem items stack =>
    match token with
    | .comma => nextValue (.array items :: stack)
    | .arrayClose => complete (.array (Items.closed.prepend items)) stack
    | _ => finished reader.stop
  | afterMember members stack =>
    match token with
    | .comma => nextKey members stack
    | .objectClose => complete (.object (Members.closed.prepend members)) stack
    | _ => finished reader.stop
  | finished document => finished { document with trailing := true }

end Reader

namespace Document

/-- The words of a text as one value. -/
def ofTokens (tokens : List Token) : Document :=
  (tokens.foldl Reader.step (.nextValue [])).stop

/-- A text as one value. -/
def ofText (text : String) : Document :=
  ofTokens (Token.scan text.toList)

end Document

end Modbus
