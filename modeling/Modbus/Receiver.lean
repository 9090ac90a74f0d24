import Modbus.Command

/-!
# Replies and receivers

A `Reply` is what a command waits for, filled with what the device last sent. It is made from the
command (`Reply.ofReadHolding`, `Reply.ofWriteSingle`, `Reply.ofWriteMultiple`,
`Reply.ofReadRecords`), which fixes its length (`Reply.expectedLen`). `Reply.decode` takes a
received message apart from its end to its beginning and gives the filled reply, or says what is
wrong.

A `Receiver` waits for a reply and takes in one message after another. It has one frame, in which
all of them are taken apart; what an earlier message left there does not show (`Reply.exec_read`).
A message that is refused leaves the reply as it is.
-/

namespace Modbus

/-- The answer that a command waits for, with what was last received. -/
inductive Reply where
  /-- The words of registers. -/
  | holding (device : UInt8) (words : List UInt16)
  /-- The echo of a written register; if a word is expected, no other is accepted. -/
  | single (device : UInt8) (register : UInt16) (expected : Option UInt16) (value : UInt16)
  /-- The echo of a bulk write. -/
  | multiple (device : UInt8) (start count : UInt16)
  /-- The words of file records. -/
  | file (device : UInt8) (records : List FileRecord)
deriving DecidableEq, Repr

namespace Reply

/-- The length of the whole message, check included. -/
def expectedLen : Reply → Nat
  | holding _ words => 5 + 2 * words.length
  | single .. => 8
  | multiple .. => 8
  | file _ records => 5 + FileRecord.replyLen records

/-! ### What a command waits for -/

/-- A reply must fit a message. -/
def fitting (reply : Reply) : Except WireError Reply :=
  if maxFrameLen < reply.expectedLen then .error .outOfBuffer else .ok reply

/-- The reply to a read of `count` registers. -/
def ofReadHolding (device : UInt8) (count : UInt16) : Except WireError Reply :=
  if count = 0 then .error (.underflow "Response too small")
  else fitting (holding device (List.replicate count.toNat 0))

/-- The reply to the write of one register. -/
def ofWriteSingle (device : UInt8) (register : UInt16) (expected : Option UInt16) : Reply :=
  single device register expected 0

/-- The reply to the write of several registers. -/
def ofWriteMultiple (device : UInt8) (start count : UInt16) : Reply :=
  multiple device start count

/-- The reply to a read of file records. -/
def ofReadRecords (device : UInt8) (records : List FileRecord) : Except WireError Reply :=
  if records.isEmpty then .error (.underflow "Response too small")
  else fitting (file device records)

/-! ### Reading a reply -/

/-- The file records at the end of the unread region, the last one first: its words, then the
reference and the size before them. -/
def takeRecords {capacity : Nat} : List FileRecord → Codec capacity (List FileRecord)
  | [] => pure []
  | record :: records => do
    -- the records behind this one stand nearer to the end
    let later ← takeRecords records
    let data ← Codec.takeWords "record_data" record.size
    let reference ← Codec.takeByte "reference"
    let fieldSize ← Codec.takeByte "field_size"
    Codec.check "reference" reference.toUInt32 fileReference.toUInt32
    Codec.check "field_size" fieldSize.toUInt32 (UInt32.ofNat (1 + 2 * record.size))
    return { record with data } :: later

/-- The fields of a checked message, from the last to the first. -/
def take {capacity : Nat} (reply : Reply) : Codec capacity Reply :=
  match reply with
  | holding device words => do
    let received ← Codec.takeWords "regs" words.length
    let byteCount ← Codec.takeByte "byte_count"
    let function ← Codec.takeByte "function"
    let sender ← Codec.takeByte "dev_addr"
    Codec.check "function" function.toUInt32 readHoldingCode.toUInt32
    Codec.check "byte_count" byteCount.toUInt32 (UInt32.ofNat (2 * words.length))
    Codec.check "dev_addr" sender.toUInt32 device.toUInt32
    return holding device received
  | single device register expected _ => do
    let value ← Codec.takeWord "value"
    let offset ← Codec.takeWord "reg_off"
    let function ← Codec.takeByte "function"
    let sender ← Codec.takeByte "dev_addr"
    Codec.check "dev_addr" sender.toUInt32 device.toUInt32
    Codec.check "function" function.toUInt32 writeSingleCode.toUInt32
    Codec.check "reg_off" offset.toUInt32 register.toUInt32
    if let some due := expected then
      Codec.check "value" value.toUInt32 due.toUInt32
    return single device register expected value
  | multiple device start count => do
    let written ← Codec.takeWord "reg_count"
    let first ← Codec.takeWord "starting_addr"
    let function ← Codec.takeByte "function"
    let sender ← Codec.takeByte "dev_addr"
    Codec.check "dev_addr" sender.toUInt32 device.toUInt32
    Codec.check "function" function.toUInt32 writeMultipleCode.toUInt32
    Codec.check "starting_addr" first.toUInt32 start.toUInt32
    Codec.check "reg_count" written.toUInt32 count.toUInt32
    return multiple device start count
  | file device records => do
    let received ← takeRecords records
    let dataLen ← Codec.takeByte "data_len"
    let function ← Codec.takeByte "function"
    let sender ← Codec.takeByte "dev_addr"
    Codec.check "data_len" dataLen.toUInt32 (UInt32.ofNat (reply.expectedLen - 5))
    Codec.check "function" function.toUInt32 readRecordsCode.toUInt32
    Codec.check "dev_addr" sender.toUInt32 device.toUInt32
    let frame ← get
    -- nothing may stand before the device
    Codec.check "length" (UInt32.ofNat frame.remaining) 0
    return file device received

/-- Take a received message apart. -/
def read (reply : Reply) (message : List UInt8) : Codec maxFrameLen Reply := do
  Codec.load message
  Codec.validate
  reply.take

/-- The reply filled from a received message. -/
def decode (reply : Reply) (message : List UInt8) : Except WireError Reply :=
  ((reply.read message).exec { expectedLen := reply.expectedLen }).1

/-- What a frame held before does not matter when a message is read. -/
theorem exec_read (reply : Reply) (message : List UInt8) (frame : Frame maxFrameLen) :
    (reply.read message).exec frame =
      (reply.read message).exec { expectedLen := frame.expectedLen } := by
  simp only [read, Codec.exec_bind, Codec.exec_load]

end Reply

/-! ### Receivers -/

/-- A reply that is waited for, and the frame in which messages are taken apart. -/
structure Receiver where
  reply : Reply
  frame : Frame maxFrameLen
deriving DecidableEq, Repr

namespace Receiver

/-- A receiver to which nothing has been sent yet. -/
def ofReply (reply : Reply) : Receiver :=
  { reply, frame := { expectedLen := reply.expectedLen } }

/-- Take a message in. -/
def receive (receiver : Receiver) (message : List UInt8) : Except WireError Unit × Receiver :=
  match (receiver.reply.read message).exec receiver.frame with
  | (.ok reply, frame) => (.ok (), { reply, frame })
  | (.error e, frame) => (.error e, { receiver with frame })

/-- The outcomes of a list of messages, each with the receiver after it. -/
def session (receiver : Receiver) : List (List UInt8) → List (Except WireError Unit × Receiver)
  | [] => []
  | message :: messages =>
    let result := receiver.receive message
    result :: session result.2 messages

/-- The receiver after a list of messages. -/
def run (receiver : Receiver) (messages : List (List UInt8)) : Receiver :=
  messages.foldl (fun receiver message => (receiver.receive message).2) receiver

end Receiver

end Modbus
