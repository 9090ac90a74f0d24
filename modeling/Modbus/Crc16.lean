import Modbus.Bytes

/-!
# The cyclic redundancy check of a frame

Every frame ends in a 16 bit check of the bytes before it. The register of the check starts as
all ones; each byte is added to its low half and then shifted out bit by bit, the generator
`x^16 + x^15 + x^2 + 1` being subtracted (in its reflected form `0xA001`) whenever a one falls
out. `crc16` is the register after a whole message, `crcTrailer` the two bytes that carry it, and
`sealed` a message followed by its check.
-/

namespace Modbus

/-- One shift of the register: the generator is subtracted if a one falls out. -/
def Crc16.shift (register : UInt16) : UInt16 :=
  if register &&& 1 = 0 then register >>> 1 else (register >>> 1) ^^^ 0xA001

/-- The register after one more byte. -/
def Crc16.feed (register : UInt16) (byte : UInt8) : UInt16 :=
  -- the byte joins the low half, the end at which bits fall out
  Nat.repeat Crc16.shift 8 (register ^^^ byte.toUInt16)

/-- The check of a message. -/
def crc16 (message : List UInt8) : UInt16 :=
  message.foldl Crc16.feed 0xFFFF

/-- A check as it travels: alone among the numbers of a frame, low byte first. -/
def crcTrailer (crc : UInt16) : List UInt8 :=
  [crc.toUInt8, UInt8.ofNat (crc.toNat / 256)]

/-- The check that a trailer carries. -/
def crcOfTrailer : List UInt8 → UInt16
  | [low, high] => wordOfBytes high low
  | _ => 0

/-- A message followed by its check. -/
def sealed (message : List UInt8) : List UInt8 :=
  message ++ crcTrailer (crc16 message)

@[simp] theorem crc16_nil : crc16 [] = 0xFFFF := rfl

/-- The check of a longer message goes on from the register of its beginning. -/
theorem crc16_append (first second : List UInt8) :
    crc16 (first ++ second) = second.foldl Crc16.feed (crc16 first) :=
  List.foldl_append

@[simp] theorem length_crcTrailer (crc : UInt16) : (crcTrailer crc).length = 2 := rfl

@[simp] theorem length_sealed (message : List UInt8) :
    (sealed message).length = message.length + 2 := by
  simp [sealed]

/-- A trailer carries the check it was made from. -/
@[simp] theorem crcOfTrailer_crcTrailer (crc : UInt16) : crcOfTrailer (crcTrailer crc) = crc :=
  wordOfBytes_wordBytes crc

/-- Two bytes are the trailer of the check they carry. -/
theorem crcTrailer_crcOfTrailer (low high : UInt8) :
    crcTrailer (crcOfTrailer [low, high]) = [low, high] := by
  have h := wordBytes_wordOfBytes high low
  simp only [wordBytes, List.cons.injEq, and_true] at h
  simp [crcTrailer, crcOfTrailer, h.1, h.2]

end Modbus
