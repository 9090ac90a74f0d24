import Modbus.Crc16
import Modbus.Frame.Error

/-!
# Frames

A `Frame` is one message of the serial line: device address, function, payload and check. It is
put together front to back and taken apart back to front: the length of a reply follows from the
command, so the fields next to the check are read first and the address last.

The steps on a frame are actions of the monad `Codec`, which keeps the frame that a failed step
left behind. Writing: `Codec.write` and what is made of it (`byte`, `word`, `words`), `patch` and
`close`. Reading: `load` takes the received bytes, `validate` checks length, refusal and check and
opens the unread region, `take` and what is made of it (`takeByte`, `takeWord`, `takeWords`) shrink
that region from its end.
-/

namespace Modbus

/-- The most bytes a message of the line has. -/
def maxFrameLen : Nat := 256

/-- The bytes of the check at the end of a frame. -/
def crcLen : Nat := 2

/-- The bytes of a refusal: address, function, code and check. -/
def exceptionFrameLen : Nat := 5

/-- Set on the function of a refusal. -/
def exceptionFlag : UInt8 := 0x80

/-- A message being written or read, of at most `capacity` bytes. -/
structure Frame (capacity : Nat) where
  /-- The length that a received message must have, check included. -/
  expectedLen : Nat := 0
  /-- The message so far. -/
  bytes : List UInt8 := []
  /-- How many bytes from the front are still to be read. -/
  remaining : Nat := 0
deriving DecidableEq, Repr

/-- A step on a frame; a step that fails also leaves a frame behind. -/
abbrev Codec (capacity : Nat) := ExceptT WireError (StateM (Frame capacity))

/-- The outcome of a step and the frame after it. -/
def Codec.exec {capacity : Nat} {α : Type} (step : Codec capacity α) (frame : Frame capacity) :
    Except WireError α × Frame capacity :=
  step.run.run frame

namespace Frame

variable {capacity : Nat}

/-- The check that the frame carries in its last two bytes. -/
def receivedCrc (frame : Frame capacity) : UInt16 :=
  crcOfTrailer (frame.bytes.drop (frame.bytes.length - crcLen))

/-- The check that belongs to all bytes but the last two. -/
def computedCrc (frame : Frame capacity) : UInt16 :=
  crc16 (frame.bytes.take (frame.bytes.length - crcLen))

/-- The refusal that a frame holds. A frame is read as one when it has the length of a refusal, no
regular reply of that length is due, the flag is set and the check is right. -/
def exception? (frame : Frame capacity) : Option (UInt8 × ExceptionCode) :=
  match frame.bytes with
  | [_, function, code, _, _] =>
    if frame.expectedLen ≠ exceptionFrameLen ∧ function &&& exceptionFlag ≠ 0
        ∧ frame.computedCrc = frame.receivedCrc then
      some (function &&& ~~~exceptionFlag, ExceptionCode.ofByte code)
    else none
  | _ => none

end Frame

namespace Codec

variable {capacity : Nat}

/-! ### Writing -/

/-- Append bytes, all of them or none. -/
def write (data : List UInt8) : Codec capacity Unit := do
  let frame ← get
  if frame.bytes.length + data.length ≤ capacity then
    set ({ frame with bytes := frame.bytes ++ data } : Frame capacity)
  else
    throw .outOfBuffer

/-- Append one byte. -/
def byte (value : UInt8) : Codec capacity Unit :=
  write [value]

/-- Append a word. -/
def word (value : UInt16) : Codec capacity Unit :=
  write (wordBytes value)

/-- Append words one by one, up to the first that does not fit. -/
def words : List UInt16 → Codec capacity Unit
  | [] => pure ()
  | value :: values => do
    word value
    words values

/-- Overwrite a byte that is already there. -/
def patch (index : Nat) (value : UInt8) : Codec capacity Unit := do
  let frame ← get
  if index < frame.bytes.length then
    set ({ frame with bytes := frame.bytes.set index value } : Frame capacity)
  else
    throw .outOfBuffer

/-- Append the check of everything written. -/
def close : Codec capacity Unit := do
  let frame ← get
  write (crcTrailer (crc16 frame.bytes))

/-! ### Reading -/

/-- Drop the message. -/
def clear : Codec capacity Unit :=
  modify fun frame => { frame with bytes := [], remaining := 0 }

/-- Replace the message by received bytes. More than a message can have is a wrong length. -/
def load (data : List UInt8) : Codec capacity Unit := do
  clear
  let frame ← get
  -- the old message is gone by now, whatever becomes of the new one
  if maxFrameLen < data.length then
    throw (.frameLength frame.expectedLen data.length)
  write data

/-- Check a received message and open all of it but the check for reading. A refusal with a right
check is reported as such whatever length was due; one with a wrong check is a frame of the wrong
length. -/
def validate : Codec capacity Unit := do
  let frame ← get
  -- a refusal has a length of its own, so it is looked for before the length is
  if let some (function, code) := frame.exception? then
    throw (.exception function code)
  if frame.bytes.length ≠ frame.expectedLen ∨ frame.bytes.length < crcLen then
    throw (.frameLength frame.expectedLen frame.bytes.length)
  if frame.computedCrc ≠ frame.receivedCrc then
    throw (.crcMismatch frame.computedCrc frame.receivedCrc)
  set ({ frame with remaining := frame.bytes.length - crcLen } : Frame capacity)

/-- Read `size` bytes from the end of the unread region. -/
def take (field : String) (size : Nat) : Codec capacity (List UInt8) := do
  let frame ← get
  if frame.remaining < size then
    throw (.underflow field)
  let start := frame.remaining - size
  set ({ frame with remaining := start } : Frame capacity)
  return (frame.bytes.drop start).take size

/-- Read one byte. -/
def takeByte (field : String) : Codec capacity UInt8 := do
  let bytes ← take field 1
  return bytes.headD 0

/-- Read a word. -/
def takeWord (field : String) : Codec capacity UInt16 := do
  let bytes ← take field 2
  return (wordsOfBytes bytes).headD 0

/-- Read `count` words, in the order in which they stand. -/
def takeWords (field : String) (count : Nat) : Codec capacity (List UInt16) := do
  let bytes ← take field (2 * count)
  return wordsOfBytes bytes

/-- A field must hold the value that the command implies. -/
def check (field : String) (actual expected : UInt32) : Codec capacity Unit :=
  match checkField field actual expected with
  | .ok () => pure ()
  | .error e => throw e

/-! ### What each step does

One equation for every step: its outcome and the frame after it. -/

@[simp] theorem exec_pure {α : Type} (a : α) (frame : Frame capacity) :
    (pure a : Codec capacity α).exec frame = (.ok a, frame) := rfl

@[simp] theorem exec_throw {α : Type} (e : WireError) (frame : Frame capacity) :
    (throw e : Codec capacity α).exec frame = (.error e, frame) := rfl

/-- A sequence of steps stops at the first that fails, with the frame that this one left. -/
theorem exec_bind {α β : Type} (step : Codec capacity α) (next : α → Codec capacity β)
    (frame : Frame capacity) :
    (step >>= next).exec frame =
      match step.exec frame with
      | (.ok a, frame) => (next a).exec frame
      | (.error e, frame) => (.error e, frame) := by
  show (match step.exec frame with
    | (r, frame) => ExceptT.bindCont next r frame) = _
  rcases step.exec frame with ⟨_ | _, _⟩ <;> rfl

theorem exec_bind_of_ok {α β : Type} {step : Codec capacity α} {next : α → Codec capacity β}
    {frame frame' : Frame capacity} {a : α} (h : step.exec frame = (.ok a, frame')) :
    (step >>= next).exec frame = (next a).exec frame' := by
  simp [exec_bind, h]

theorem exec_bind_of_error {α β : Type} {step : Codec capacity α} {next : α → Codec capacity β}
    {frame frame' : Frame capacity} {e : WireError} (h : step.exec frame = (.error e, frame')) :
    (step >>= next).exec frame = (.error e, frame') := by
  simp [exec_bind, h]

theorem exec_write (data : List UInt8) (frame : Frame capacity) :
    (write data).exec frame =
      if frame.bytes.length + data.length ≤ capacity then
        (.ok (), { frame with bytes := frame.bytes ++ data })
      else (.error .outOfBuffer, frame) := by
  show (if _ then _ else _ : Codec capacity Unit).exec frame = _
  split <;> rfl

theorem exec_patch (index : Nat) (value : UInt8) (frame : Frame capacity) :
    (patch index value).exec frame =
      if index < frame.bytes.length then
        (.ok (), { frame with bytes := frame.bytes.set index value })
      else (.error .outOfBuffer, frame) := by
  show (if _ then _ else _ : Codec capacity Unit).exec frame = _
  split <;> rfl

theorem exec_close (frame : Frame capacity) :
    close.exec frame = (write (crcTrailer (crc16 frame.bytes))).exec frame := rfl

@[simp] theorem exec_clear (frame : Frame capacity) :
    clear.exec frame = (.ok (), { frame with bytes := [], remaining := 0 }) := rfl

theorem exec_load (data : List UInt8) (frame : Frame capacity) :
    (load data).exec frame =
      if maxFrameLen < data.length then
        (.error (.frameLength frame.expectedLen data.length),
          { frame with bytes := [], remaining := 0 })
      else (write data).exec { frame with bytes := [], remaining := 0 } := by
  show (if _ then _ else _ : Codec capacity Unit).exec _ = _
  split <;> rfl

theorem exec_validate (frame : Frame capacity) :
    validate.exec frame =
      match frame.exception? with
      | some (function, code) => (.error (.exception function code), frame)
      | none =>
        if frame.bytes.length ≠ frame.expectedLen ∨ frame.bytes.length < crcLen then
          (.error (.frameLength frame.expectedLen frame.bytes.length), frame)
        else if frame.computedCrc ≠ frame.receivedCrc then
          (.error (.crcMismatch frame.computedCrc frame.receivedCrc), frame)
        else (.ok (), { frame with remaining := frame.bytes.length - crcLen }) := by
  unfold validate
  rw [exec_bind_of_ok (show (get : Codec capacity _).exec frame = (.ok frame, frame) from rfl)]
  rcases frame.exception? with _ | ⟨function, code⟩
  · show (if _ then _ else if _ then _ else _ : Codec capacity Unit).exec _ = _
    split
    · rfl
    · split <;> rfl
  · rfl

theorem exec_take (field : String) (size : Nat) (frame : Frame capacity) :
    (take field size).exec frame =
      if frame.remaining < size then (.error (.underflow field), frame)
      else (.ok ((frame.bytes.drop (frame.remaining - size)).take size),
        { frame with remaining := frame.remaining - size }) := by
  show (if _ then _ else _ : Codec capacity _).exec _ = _
  split <;> rfl

@[simp] theorem exec_check (field : String) (actual expected : UInt32) (frame : Frame capacity) :
    (check field actual expected).exec frame = (checkField field actual expected, frame) := by
  unfold check
  split <;> next h => rw [h]; rfl

end Codec

end Modbus
