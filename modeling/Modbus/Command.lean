import Modbus.Frame.Basic

/-!
# Commands

A `Command` is what a device is asked to do. `Command.prepare` turns it into the command as it is
sent: a bulk write is padded to whole words, and one that asks for nothing is refused.
`Command.write` puts function and body of a prepared command into a frame.
-/

namespace Modbus

/-! ### Function codes -/

/-- Read holding registers. -/
def readHoldingCode : UInt8 := 0x03

/-- Write one register. -/
def writeSingleCode : UInt8 := 0x06

/-- Write several registers. -/
def writeMultipleCode : UInt8 := 0x10

/-- Read file records. -/
def readRecordsCode : UInt8 := 0x14

/-- The one reference type that file records have. -/
def fileReference : UInt8 := 0x06

/-- The most bytes that a bulk write carries: 123 registers. -/
def maxPayloadLen : Nat := 246

/-- The most words that can be asked of a file record. -/
def maxRecordSize : Nat := 65535

/-! ### File records -/

/-- A run of words in a file of a device. In a request the number of words counts, not what they
are; a reply fills them in. -/
structure FileRecord where
  file : UInt16
  record : UInt16
  data : List UInt16
deriving DecidableEq, Repr

namespace FileRecord

/-- A record of `words` words that are still to be read. -/
def blank (file record : UInt16) (words : Nat) : FileRecord :=
  { file, record, data := List.replicate words 0 }

/-- How many words the record has. -/
def size (record : FileRecord) : Nat :=
  record.data.length

/-- The bytes that records take in a reply: for each a size, a reference and the words. -/
def replyLen : List FileRecord → Nat
  | [] => 0
  | record :: records => (2 + 2 * record.size) + replyLen records

end FileRecord

/-! ### Commands -/

/-- What a device is asked to do. -/
inductive Command where
  /-- Send the words of `count` registers from `start` on. -/
  | readHolding (start count : UInt16)
  /-- Set one register. -/
  | writeSingle (register value : UInt16)
  /-- Set the registers from `start` on to the words of a payload. -/
  | writeMultiple (start : UInt16) (payload : List UInt8)
  /-- Send the words of records of files. -/
  | readRecords (records : List FileRecord)
deriving DecidableEq, Repr

namespace Command

/-! ### Changing a command -/

/-- Change the first register that the command is about. -/
def setAddress (address : UInt16) : Command → Command
  | readHolding _ count => readHolding address count
  | writeSingle _ value => writeSingle address value
  | writeMultiple _ payload => writeMultiple address payload
  | readRecords records => readRecords records

/-- Change the number of registers that are read. -/
def setCount (count : UInt16) : Command → Command
  | readHolding start _ => readHolding start count
  | command => command

/-- Change the word that is written to one register. -/
def setValue (value : UInt16) : Command → Command
  | writeSingle register _ => writeSingle register value
  | command => command

/-- The bytes that a bulk write has collected. -/
def payload : Command → List UInt8
  | writeMultiple _ payload => payload
  | _ => []

/-- The most bytes that the payload of the command may have. -/
def payloadLimit : Command → Nat
  | writeMultiple _ _ => maxPayloadLen
  | _ => 0

/-- The command with another payload. -/
def setPayload (data : List UInt8) : Command → Command
  | writeMultiple start _ => writeMultiple start data
  | command => command

/-- Add bytes to the payload, all of them or none. -/
def append (data : List UInt8) (command : Command) : Except WireError Command :=
  if command.payload.length + data.length ≤ command.payloadLimit then
    .ok (command.setPayload (command.payload ++ data))
  else
    .error .outOfBuffer

/-- How many registers a bulk write sets; an odd last byte counts as a whole register. -/
def registerCount (command : Command) : UInt16 :=
  UInt16.ofNat ((command.payload.length + 1) / 2)

/-! ### Sending a command -/

/-- A payload filled up to whole words. -/
def padded (payload : List UInt8) : List UInt8 :=
  if payload.length % 2 = 0 then payload else payload ++ [0]

/-- The command as it is sent. The padding of a bulk write stays in its payload. -/
def prepare : Command → Except WireError Command
  | writeMultiple start payload =>
    if payload.isEmpty then .error (.underflow "No registers to write")
    else .ok (writeMultiple start (padded payload))
  | readRecords records =>
    if records.isEmpty then .error (.underflow "No records to read")
    else .ok (readRecords records)
  | command => .ok command

/-- One part of a request for file records per record: reference, file, record and size. -/
def writeRecords {capacity : Nat} : List FileRecord → Codec capacity Unit
  | [] => pure ()
  | record :: records => do
    if maxRecordSize < record.size then
      throw .outOfBuffer
    Codec.byte fileReference
    Codec.word record.file
    Codec.word record.record
    Codec.word (UInt16.ofNat record.size)
    writeRecords records

/-- Function and body of a prepared command. The byte count of a request for file records stands
before the parts that it counts and is put in after them. -/
def write {capacity : Nat} (command : Command) : Codec capacity Unit :=
  match command with
  | readHolding start count => do
    Codec.byte readHoldingCode
    Codec.word start
    Codec.word count
  | writeSingle register value => do
    Codec.byte writeSingleCode
    Codec.word register
    Codec.word value
  | writeMultiple start payload => do
    Codec.byte writeMultipleCode
    Codec.word start
    Codec.word command.registerCount
    Codec.byte (UInt8.ofNat payload.length)
    Codec.write payload
  | readRecords records => do
    Codec.byte readRecordsCode
    Codec.byte 0
    writeRecords records
    let frame ← get
    -- device, function and the count itself are not counted
    Codec.patch 2 (UInt8.ofNat (frame.bytes.length - 3))

end Command

end Modbus
