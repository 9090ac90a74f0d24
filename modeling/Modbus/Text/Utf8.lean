/-!
# Bytes as text

Text travels as UTF-8: one byte for characters up to `0x7F`, else a lead byte and one to three
continuation bytes. `Utf8.scan` reads bytes one by one; whatever cannot be continued to a character
shows up as one gap. `Utf8.decodeLossy` puts the replacement character for every gap,
`Utf8.decode?` refuses bytes with a gap. `Utf8.encode` gives the bytes of a text.
-/

namespace Modbus.Utf8

/-- A character that has been started: its bits so far, how many bytes are missing, and the bounds
of the next one. The bounds of the byte behind the lead shut out forms that are longer than they
need be, surrogates, and numbers beyond the last character. -/
structure Started where
  code : Nat
  missing : Nat
  least : UInt8 := 0x80
  most : UInt8 := 0xBF
deriving DecidableEq, Repr

/-- The character that a lead byte starts. -/
def lead? (byte : UInt8) : Option Started :=
  let n := byte.toNat
  if 0xC2 ≤ n ∧ n ≤ 0xDF then some { code := n - 0xC0, missing := 1 }
  else if n = 0xE0 then some { code := 0, missing := 2, least := 0xA0 }
  else if n = 0xED then some { code := 0xD, missing := 2, most := 0x9F }
  else if 0xE1 ≤ n ∧ n ≤ 0xEF then some { code := n - 0xE0, missing := 2 }
  else if n = 0xF0 then some { code := 0, missing := 3, least := 0x90 }
  else if 0xF1 ≤ n ∧ n ≤ 0xF3 then some { code := n - 0xF0, missing := 3 }
  else if n = 0xF4 then some { code := 4, missing := 3, most := 0x8F }
  else none

/-- A byte where a character starts: what is read, characters and gaps, and what is started. -/
def start (byte : UInt8) : List (Option Char) × Option Started :=
  if byte.toNat < 0x80 then ([some (Char.ofNat byte.toNat)], none)
  else
    match lead? byte with
    | some started => ([], some started)
    | none => ([none], none)

/-- One more byte. A byte that does not continue the character that was started leaves a gap and
starts anew. -/
def step (started : Option Started) (byte : UInt8) : List (Option Char) × Option Started :=
  match started with
  | none => start byte
  | some character =>
    if character.least ≤ byte ∧ byte ≤ character.most then
      let code := 64 * character.code + (byte.toNat - 0x80)
      if character.missing = 1 then ([some (Char.ofNat code)], none)
      else ([], some { code, missing := character.missing - 1 })
    else
      -- the byte is not lost: it may start a character of its own
      let (read, started) := start byte
      (none :: read, started)

/-- The characters and gaps of bytes, given what was started before them. -/
def scanFrom : Option Started → List UInt8 → List (Option Char)
  | none, [] => []
  | some _, [] => [none]
  | started, byte :: bytes =>
    let (read, started) := step started byte
    read ++ scanFrom started bytes

/-- The characters and gaps of bytes. -/
def scan (bytes : List UInt8) : List (Option Char) :=
  scanFrom none bytes

/-- Stands for what is no character. -/
def replacement : Char := '\uFFFD'

/-- The text of bytes, with the replacement character for every gap. -/
def decodeLossy (bytes : List UInt8) : String :=
  String.ofList ((scan bytes).map fun char => char.getD replacement)

/-- The text of bytes that hold nothing but characters. -/
def decode? (bytes : List UInt8) : Option String :=
  ((scan bytes).mapM id).map String.ofList

/-- The bytes of a text. -/
def encode (text : String) : List UInt8 :=
  text.toUTF8.data.toList

end Modbus.Utf8
