import Modbus.Json.Number

/-!
# Words of a document

`Token.scan` cuts a text into its words: brackets, separators, names, numbers and quoted texts.
It is total: at the first place where no word can be read it ends with `Token.bad`. A number out of
range and a quoted text with half a surrogate pair are words without a value, since a document may
hold them where nothing is read from them.
-/

namespace Modbus

/-- A word of a document. -/
inductive Token where
  | arrayOpen
  | arrayClose
  | objectOpen
  | objectClose
  | comma
  | colon
  | null
  | bool (value : Bool)
  | number (value : Option Number)
  | text (value : Option String)
  /-- No word can be read from here on. -/
  | bad
deriving DecidableEq, Repr

namespace Token

/-! ### Quoted texts -/

/-- A part of a quoted text: a character, or a unit of 16 bits given by its number. -/
inductive Piece where
  | char (c : Char)
  | unit (code : Nat)
deriving DecidableEq, Repr

/-- The value of a hexadecimal digit. -/
def hexValue? (c : Char) : Option Nat :=
  if '0' ≤ c ∧ c ≤ '9' then some (c.toNat - '0'.toNat)
  else if 'a' ≤ c ∧ c ≤ 'f' then some (c.toNat - 'a'.toNat + 10)
  else if 'A' ≤ c ∧ c ≤ 'F' then some (c.toNat - 'A'.toNat + 10)
  else none

/-- The number that four hexadecimal digits spell. -/
def hexCode? (a b c d : Char) : Option Nat := do
  return 4096 * (← hexValue? a) + 256 * (← hexValue? b) + 16 * (← hexValue? c) + (← hexValue? d)

/-- The character that a letter behind a backslash stands for. -/
def escaped? : Char → Option Char
  | '"' => some '"'
  | '\\' => some '\\'
  | '/' => some '/'
  | 'b' => some '\x08'
  | 'f' => some '\x0c'
  | 'n' => some '\n'
  | 'r' => some '\r'
  | 't' => some '\t'
  | _ => none

/-- The pieces of a text up to its closing quote, and how many characters they take with that
quote. Control characters must be escaped. -/
def scanQuoted : List Char → Option (List Piece × Nat)
  | [] => none
  | '"' :: _ => some ([], 1)
  | '\\' :: 'u' :: a :: b :: c :: d :: rest => do
    let code ← hexCode? a b c d
    let (pieces, length) ← scanQuoted rest
    return (.unit code :: pieces, length + 6)
  | '\\' :: letter :: rest => do
    let char ← escaped? letter
    let (pieces, length) ← scanQuoted rest
    return (.char char :: pieces, length + 2)
  | char :: rest =>
    if char = '\\' ∨ char.toNat < 0x20 then none
    else do
      let (pieces, length) ← scanQuoted rest
      return (.char char :: pieces, length + 1)

/-- The first half of a surrogate pair. -/
def isLead (code : Nat) : Bool :=
  0xD800 ≤ code && code < 0xDC00

/-- The second half of a surrogate pair. -/
def isTrail (code : Nat) : Bool :=
  0xDC00 ≤ code && code < 0xE000

/-- The characters that pieces spell; none if half of a surrogate pair stands alone. -/
def spell? : List Piece → Option (List Char)
  | [] => some []
  | .char c :: rest => do
    return c :: (← spell? rest)
  | .unit lead :: .unit trail :: rest =>
    -- two halves make one character; in any other order they stand alone
    if isLead lead then
      if isTrail trail then do
        return Char.ofNat (0x10000 + (lead - 0xD800) * 0x400 + (trail - 0xDC00)) :: (← spell? rest)
      else none
    else if isTrail lead then none
    else do
      return Char.ofNat lead :: (← spell? (.unit trail :: rest))
  | .unit code :: rest =>
    if isLead code || isTrail code then none
    else do
      return Char.ofNat code :: (← spell? rest)

/-! ### Words -/

/-- Blanks between words. -/
def isBlank (c : Char) : Bool :=
  c = ' ' || c = '\t' || c = '\n' || c = '\r'

/-- The word of one character. -/
def mark? : Char → Option Token
  | '[' => some arrayOpen
  | ']' => some arrayClose
  | '\x7b' => some objectOpen
  | '\x7d' => some objectClose
  | ',' => some comma
  | ':' => some colon
  | _ => none

/-- The name that a character starts, and the characters that must follow it. -/
def name? : Char → Option (Token × List Char)
  | 'n' => some (null, ['u', 'l', 'l'])
  | 't' => some (bool true, ['r', 'u', 'e'])
  | 'f' => some (bool false, ['a', 'l', 's', 'e'])
  | _ => none

/-- The word that a text starts with, a character that is no blank and what follows it, and how
many of the characters that follow belong to the word. -/
def next? (char : Char) (rest : List Char) : Option (Token × Nat) :=
  match mark? char with
  | some token => some (token, 0)
  | none =>
    match name? char with
    | some (token, others) => if others.isPrefixOf rest then some (token, others.length) else none
    | none =>
      if char = '"' then
        (scanQuoted rest).map fun (pieces, length) =>
          (text ((spell? pieces).map String.ofList), length)
      else
        (Numeral.scan? (char :: rest)).map fun numeral =>
          (number numeral.value, numeral.length - 1)

/-- The words of a text. -/
def scan : List Char → List Token
  | [] => []
  | char :: rest =>
    if isBlank char then scan rest
    else
      match next? char rest with
      | some (token, length) => token :: scan (rest.drop length)
      | none => [bad]
termination_by text => text.length
decreasing_by all_goals simp_wf; try omega

end Token

end Modbus
