import Modbus.Proofs.Frame.Safety
import Modbus.Proofs.Receiver.Independence

/-!
# Reading a reply with every index checked

A message is taken apart by actions on a frame, one field after the other. `Reply.readWithin?` does
this as `Reply.read` does, but takes each action by `Frame.performWithin?`: it stops at an index
outside of the message and at a difference of lengths that would be negative.

On the way from field to field no more is unread than there is (`Codec.StaysInside`), so every
single action is taken as it would be unchecked. The two readings agree step by step
(`CheckedCodec.Agrees`), and the checked one never stops (`Reply.readWithin?_eq`). So a receiver may
as well take its messages in with every index checked (`Receiver.receiveWithin?_eq`).
-/

namespace Modbus

/-- A step on a frame that may also stop, at an index outside of the message or at a negative
length. -/
abbrev CheckedCodec (capacity : Nat) := ExceptT WireError (StateT (Frame capacity) Option)

namespace CheckedCodec

variable {capacity : Nat} {α β : Type} {field : String}

/-- The outcome of a step and the frame after it, unless it stops. -/
def exec (step : CheckedCodec capacity α) (frame : Frame capacity) :
    Option (Except WireError α × Frame capacity) :=
  step.run.run frame

/-! ### Checked actions -/

/-- Take an action with its indices and lengths checked, and hand out what `form` makes of its
outcome. -/
def act (action : Frame.Action) (form : Frame.Outcome → Option α) : CheckedCodec capacity α :=
  ExceptT.mk fun frame => do
    match ← frame.performWithin? action with
    | (.ok outcome, after) => return (.ok (← form outcome), after)
    | (.error e, after) => return (.error e, after)

/-- Replace the message by received bytes. -/
def load (data : List UInt8) : CheckedCodec capacity Unit :=
  act (.load data) fun _ => some ()

/-- Check a received message and open it. -/
def validate : CheckedCodec capacity Unit :=
  act .validate fun _ => some ()

/-- Read one byte. -/
def takeByte (field : String) : CheckedCodec capacity UInt8 :=
  act (.takeByte field) fun
    | .byte value => some value
    | _ => none

/-- Read a word. -/
def takeWord (field : String) : CheckedCodec capacity UInt16 :=
  act (.takeWord field) fun
    | .word value => some value
    | _ => none

/-- Read `count` words. -/
def takeWords (field : String) (count : Nat) : CheckedCodec capacity (List UInt16) :=
  act (.takeWords field count) fun
    | .words values => some values
    | _ => none

/-- A field must hold the value that the command implies. -/
def check (field : String) (actual expected : UInt32) : CheckedCodec capacity Unit :=
  match checkField field actual expected with
  | .ok () => pure ()
  | .error e => throw e

theorem exec_bind (step : CheckedCodec capacity α) (next : α → CheckedCodec capacity β)
    (frame : Frame capacity) :
    (step >>= next).exec frame =
      (step.exec frame).bind fun
        | (.ok a, after) => (next a).exec after
        | (.error e, after) => some (.error e, after) := by
  show (step.exec frame).bind (fun result => ExceptT.bindCont next result.1 result.2) = _
  congr 1
  funext ⟨result, after⟩
  cases result <;> rfl

/-! ### What the checks leave alone -/

/-- Where no more is unread than there is, the checked step does not stop, and does what the other
one does. -/
def Agrees (checked : CheckedCodec capacity α) (step : Codec capacity α) : Prop :=
  ∀ frame : Frame capacity, frame.remaining ≤ frame.bytes.length →
    checked.exec frame = some (step.exec frame)

theorem agrees_pure (a : α) : Agrees (pure a : CheckedCodec capacity α) (pure a) :=
  fun _ _ => rfl

theorem agrees_get : Agrees (get : CheckedCodec capacity (Frame capacity)) get :=
  fun _ _ => rfl

/-- **One action**: the checks pass, as no more is unread than there is. -/
theorem agrees_act {action : Frame.Action} {form : Frame.Outcome → Option α}
    {step : Codec capacity α} (give : α → Frame.Outcome)
    (haction : (action.step : Codec capacity Frame.Outcome) = step >>= fun a => pure (give a))
    (hform : ∀ a, form (give a) = some a) : Agrees (act action form) step := by
  intro frame hinside
  show (frame.performWithin? action).bind _ = _
  rw [Frame.performWithin?_eq hinside, Frame.perform, haction, Codec.exec_bind_pure,
    Option.bind_some]
  rcases step.exec frame with ⟨e | a, after⟩
  · rfl
  · show (form (give a)).bind _ = _
    rw [hform, Option.bind_some]
    rfl

/-- **One step after the other**: the second starts where the first has left no more unread than
there is. -/
theorem Agrees.bind {checked : CheckedCodec capacity α} {step : Codec capacity α}
    {checkedNext : α → CheckedCodec capacity β} {next : α → Codec capacity β}
    (h : Agrees checked step) (hinside : step.StaysInside)
    (hnext : ∀ a, Agrees (checkedNext a) (next a)) :
    Agrees (checked >>= checkedNext) (step >>= next) := by
  intro frame hframe
  have hafter := hinside frame hframe
  rw [exec_bind, h frame hframe, Option.bind_some, Codec.exec_bind]
  rcases hexec : step.exec frame with ⟨e | a, after⟩
  · rfl
  · rw [hexec] at hafter
    exact hnext a after hafter

theorem agrees_load (data : List UInt8) :
    Agrees (load data : CheckedCodec capacity Unit) (Codec.load data) :=
  agrees_act (fun _ => .done) rfl fun _ => rfl

theorem agrees_validate : Agrees (validate : CheckedCodec capacity Unit) Codec.validate :=
  agrees_act (fun _ => .done) rfl fun _ => rfl

theorem agrees_check (actual expected : UInt32) :
    Agrees (check field actual expected : CheckedCodec capacity Unit)
      (Codec.check field actual expected) := by
  intro frame _
  rw [Codec.exec_check, check]
  cases checkField field actual expected <;> rfl

theorem Agrees.takeByte_bind {checkedNext : UInt8 → CheckedCodec capacity α}
    {next : UInt8 → Codec capacity α} (hnext : ∀ byte, Agrees (checkedNext byte) (next byte)) :
    Agrees (takeByte field >>= checkedNext) (Codec.takeByte field >>= next) :=
  .bind (agrees_act .byte rfl fun _ => rfl) (Codec.onlyReads_takeByte field).staysInside hnext

theorem Agrees.takeWord_bind {checkedNext : UInt16 → CheckedCodec capacity α}
    {next : UInt16 → Codec capacity α} (hnext : ∀ word, Agrees (checkedNext word) (next word)) :
    Agrees (takeWord field >>= checkedNext) (Codec.takeWord field >>= next) :=
  .bind (agrees_act .word rfl fun _ => rfl) (Codec.onlyReads_takeWord field).staysInside hnext

theorem Agrees.takeWords_bind {count : Nat}
    {checkedNext : List UInt16 → CheckedCodec capacity α} {next : List UInt16 → Codec capacity α}
    (hnext : ∀ words, Agrees (checkedNext words) (next words)) :
    Agrees (takeWords field count >>= checkedNext) (Codec.takeWords field count >>= next) :=
  .bind (agrees_act .words rfl fun _ => rfl) (Codec.onlyReads_takeWords field count).staysInside
    hnext

theorem Agrees.check_bind {actual expected : UInt32}
    {checkedNext : Unit → CheckedCodec capacity α} {next : Unit → Codec capacity α}
    (hnext : Agrees (checkedNext ()) (next ())) :
    Agrees (check field actual expected >>= checkedNext)
      (Codec.check field actual expected >>= next) :=
  .bind (agrees_check actual expected) (Codec.onlyReads_check field actual expected).staysInside
    fun _ => hnext

end CheckedCodec

namespace Reply

variable {capacity : Nat}

open CheckedCodec

/-! ### Checked readings -/

/-- The file records at the end of the unread region. -/
def takeRecordsWithin : List FileRecord → CheckedCodec capacity (List FileRecord)
  | [] => pure []
  | record :: records => do
    let later ← takeRecordsWithin records
    let data ← CheckedCodec.takeWords "record_data" record.size
    let reference ← CheckedCodec.takeByte "reference"
    let fieldSize ← CheckedCodec.takeByte "field_size"
    CheckedCodec.check "reference" reference.toUInt32 fileReference.toUInt32
    CheckedCodec.check "field_size" fieldSize.toUInt32 (UInt32.ofNat (1 + 2 * record.size))
    return { record with data } :: later

/-- The fields of a checked message, from the last to the first. -/
def takeWithin (reply : Reply) : CheckedCodec capacity Reply :=
  match reply with
  | holding device words => do
    let received ← CheckedCodec.takeWords "regs" words.length
    let byteCount ← CheckedCodec.takeByte "byte_count"
    let function ← CheckedCodec.takeByte "function"
    let sender ← CheckedCodec.takeByte "dev_addr"
    CheckedCodec.check "function" function.toUInt32 readHoldingCode.toUInt32
    CheckedCodec.check "byte_count" byteCount.toUInt32 (UInt32.ofNat (2 * words.length))
    CheckedCodec.check "dev_addr" sender.toUInt32 device.toUInt32
    return holding device received
  | single device register expected _ => do
    let value ← CheckedCodec.takeWord "value"
    let offset ← CheckedCodec.takeWord "reg_off"
    let function ← CheckedCodec.takeByte "function"
    let sender ← CheckedCodec.takeByte "dev_addr"
    CheckedCodec.check "dev_addr" sender.toUInt32 device.toUInt32
    CheckedCodec.check "function" function.toUInt32 writeSingleCode.toUInt32
    CheckedCodec.check "reg_off" offset.toUInt32 register.toUInt32
    if let some due := expected then
      CheckedCodec.check "value" value.toUInt32 due.toUInt32
    return single device register expected value
  | multiple device start count => do
    let written ← CheckedCodec.takeWord "reg_count"
    let first ← CheckedCodec.takeWord "starting_addr"
    let function ← CheckedCodec.takeByte "function"
    let sender ← CheckedCodec.takeByte "dev_addr"
    CheckedCodec.check "dev_addr" sender.toUInt32 device.toUInt32
    CheckedCodec.check "function" function.toUInt32 writeMultipleCode.toUInt32
    CheckedCodec.check "starting_addr" first.toUInt32 start.toUInt32
    CheckedCodec.check "reg_count" written.toUInt32 count.toUInt32
    return multiple device start count
  | file device records => do
    let received ← takeRecordsWithin records
    let dataLen ← CheckedCodec.takeByte "data_len"
    let function ← CheckedCodec.takeByte "function"
    let sender ← CheckedCodec.takeByte "dev_addr"
    CheckedCodec.check "data_len" dataLen.toUInt32 (UInt32.ofNat (reply.expectedLen - 5))
    CheckedCodec.check "function" function.toUInt32 readRecordsCode.toUInt32
    CheckedCodec.check "dev_addr" sender.toUInt32 device.toUInt32
    let frame ← get
    CheckedCodec.check "length" (UInt32.ofNat frame.remaining) 0
    return file device received

/-- The outcome of taking a received message apart and the frame after it, unless an action on the
way uses an index outside of the message or a negative length. -/
def readWithin? (reply : Reply) (message : List UInt8) (frame : Frame maxFrameLen) :
    Option (Except WireError Reply × Frame maxFrameLen) :=
  CheckedCodec.exec (do
    CheckedCodec.load message
    CheckedCodec.validate
    reply.takeWithin) frame

/-! ### No reading stops -/

theorem agrees_takeRecords (records : List FileRecord) :
    Agrees (takeRecordsWithin records : CheckedCodec capacity (List FileRecord))
      (takeRecords records) := by
  induction records with
  | nil => exact agrees_pure _
  | cons record records ih =>
    exact .bind ih (onlyReads_takeRecords records).staysInside fun _ =>
      .takeWords_bind fun _ => .takeByte_bind fun _ => .takeByte_bind fun _ =>
        .check_bind (.check_bind (agrees_pure _))

theorem agrees_take (reply : Reply) :
    Agrees (reply.takeWithin : CheckedCodec capacity Reply) reply.take := by
  cases reply with
  | holding device words =>
    exact .takeWords_bind fun _ => .takeByte_bind fun _ => .takeByte_bind fun _ =>
      .takeByte_bind fun _ => .check_bind (.check_bind (.check_bind (agrees_pure _)))
  | single device register expected value =>
    refine .takeWord_bind fun _ => .takeWord_bind fun _ => .takeByte_bind fun _ =>
      .takeByte_bind fun _ => .check_bind (.check_bind (.check_bind ?_))
    cases expected with
    | none => exact agrees_pure _
    | some due => exact .check_bind (agrees_pure _)
  | multiple device start count =>
    exact .takeWord_bind fun _ => .takeWord_bind fun _ => .takeByte_bind fun _ =>
      .takeByte_bind fun _ =>
        .check_bind (.check_bind (.check_bind (.check_bind (agrees_pure _))))
  | file device records =>
    exact .bind (agrees_takeRecords records) (onlyReads_takeRecords records).staysInside fun _ =>
      .takeByte_bind fun _ => .takeByte_bind fun _ => .takeByte_bind fun _ =>
        .check_bind (.check_bind (.check_bind
          (.bind agrees_get Codec.onlyReads_get.staysInside fun _ =>
            .check_bind (agrees_pure _))))

/-- **Reading uses no index outside of the message and no negative length**, if no more is unread
before than there is. -/
theorem readWithin?_eq (reply : Reply) (message : List UInt8) {frame : Frame maxFrameLen}
    (hinside : frame.remaining ≤ frame.bytes.length) :
    reply.readWithin? message frame = some ((reply.read message).exec frame) :=
  Agrees.bind (agrees_load message) (Codec.staysInside_load message) (fun _ =>
    .bind agrees_validate Codec.staysInside_validate fun _ => agrees_take reply) frame hinside

end Reply

namespace Receiver

/-- The outcome of taking a message in and the receiver after it, unless an action on the way uses
an index outside of the message or a negative length. -/
def receiveWithin? (receiver : Receiver) (message : List UInt8) :
    Option (Except WireError Unit × Receiver) := do
  match ← receiver.reply.readWithin? message receiver.frame with
  | (.ok reply, frame) => return (.ok (), { reply, frame })
  | (.error e, frame) => return (.error e, { receiver with frame })

theorem receiveWithin?_eq {receiver : Receiver}
    (hinside : receiver.frame.remaining ≤ receiver.frame.bytes.length) (message : List UInt8) :
    receiver.receiveWithin? message = some (receiver.receive message) := by
  rw [receiveWithin?, Reply.readWithin?_eq receiver.reply message hinside, receive]
  rcases (receiver.reply.read message).exec receiver.frame with ⟨e | filled, frame⟩ <;> rfl

end Receiver

end Modbus
