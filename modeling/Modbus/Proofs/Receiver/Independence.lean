import Mathlib.Data.List.Induction
import Modbus.Proofs.Reply.Acceptance
import Modbus.Receiver

/-!
# A receiver does not depend on what it was sent before

A receiver keeps a frame and a reply between messages, and reading may stop halfway. None of this
shows: after any messages, `Receiver.receive` answers to a message as a new receiver does, and the
reply it holds is the one that the last accepted message fills, or the first one if none was
accepted (`Receiver.session_independent`).

What carries over from message to message is `Receiver.WaitsFor`: the length that is due, and the
cleared form of the reply. It is enough, since reading a reply looks at nothing but its cleared form
(`Reply.take_cleared`) and every step of reading keeps the length that is due.
-/

namespace Modbus

namespace Reply

variable {capacity : Nat}

/-! ### Reading depends on what is waited for -/

theorem takeRecords_cleared (records : List FileRecord) :
    (takeRecords (records.map FileRecord.cleared) : Codec capacity (List FileRecord)) =
      takeRecords records := by
  induction records with
  | nil => rfl
  | cons record records ih =>
    rw [List.map_cons, takeRecords, takeRecords, ih, FileRecord.size_cleared]
    rfl

/-- Reading a reply looks at nothing but what is waited for. -/
theorem take_cleared (reply : Reply) :
    (reply.cleared.take : Codec capacity Reply) = reply.take := by
  cases reply with
  | holding device words => rw [cleared, take, take, List.length_replicate]
  | single device register expected value => rfl
  | multiple device start count => rfl
  | file device records =>
    have hlen := expectedLen_cleared (file device records)
    rw [cleared] at hlen ⊢
    rw [take, take, takeRecords_cleared, hlen]

variable {first second : Reply}

theorem read_congr (h : first.cleared = second.cleared) (message : List UInt8) :
    first.read message = second.read message := by
  have htake : (first.take : Codec maxFrameLen Reply) = second.take := by
    rw [← take_cleared first, h, take_cleared]
  rw [read, read, htake]

/-! ### Reading keeps the length that is due -/

theorem onlyReads_takeRecords (records : List FileRecord) :
    (takeRecords records : Codec capacity (List FileRecord)).OnlyReads := by
  induction records with
  | nil => exact .pure _
  | cons record records ih =>
    exact .bind ih fun _ => .takeWords_bind fun _ => .takeByte_bind fun _ => .takeByte_bind fun _ =>
      .check_bind (.check_bind (.pure _))

theorem onlyReads_take (reply : Reply) : (reply.take : Codec capacity Reply).OnlyReads := by
  cases reply with
  | holding device words =>
    exact .takeWords_bind fun _ => .takeByte_bind fun _ => .takeByte_bind fun _ =>
      .takeByte_bind fun _ => .check_bind (.check_bind (.check_bind (.pure _)))
  | single device register expected value =>
    refine .takeWord_bind fun _ => .takeWord_bind fun _ => .takeByte_bind fun _ =>
      .takeByte_bind fun _ => .check_bind (.check_bind (.check_bind ?_))
    -- only an expected word is checked
    cases expected with
    | none => exact .pure _
    | some due => exact .check_bind (.pure _)
  | multiple device start count =>
    exact .takeWord_bind fun _ => .takeWord_bind fun _ => .takeByte_bind fun _ =>
      .takeByte_bind fun _ => .check_bind (.check_bind (.check_bind (.check_bind (.pure _))))
  | file device records =>
    exact .bind (onlyReads_takeRecords records) fun _ => .takeByte_bind fun _ =>
      .takeByte_bind fun _ => .takeByte_bind fun _ => .check_bind (.check_bind (.check_bind
        (.bind Codec.onlyReads_get fun _ => .check_bind (.pure _))))

theorem keepsExpectedLen_read (reply : Reply) (message : List UInt8) :
    (reply.read message).KeepsExpectedLen :=
  .bind (Codec.keepsExpectedLen_load message) fun _ =>
    .bind Codec.keepsExpectedLen_validate fun _ => (onlyReads_take reply).keepsExpectedLen

/-! ### The last accepted message -/

/-- The reply as the last message that it accepts fills it, or as it is if it accepts none. -/
def lastAccepted (reply : Reply) (messages : List (List UInt8)) : Reply :=
  ((messages.filterMap fun message => (reply.decode message).toOption).getLast?).getD reply

theorem lastAccepted_concat (reply : Reply) (messages : List (List UInt8))
    (message : List UInt8) :
    reply.lastAccepted (messages ++ [message]) =
      match reply.decode message with
      | .ok filled => filled
      | .error _ => reply.lastAccepted messages := by
  rw [lastAccepted, List.filterMap_append]
  cases hdecode : reply.decode message with
  | ok filled => simp [hdecode, Except.toOption]
  | error e => simp [hdecode, Except.toOption, lastAccepted]

end Reply

namespace Receiver

/-! ### What carries over -/

/-- The receiver waits for what a reply waits for. -/
structure WaitsFor (receiver : Receiver) (reply : Reply) : Prop where
  /-- The length that is due is that of the reply. -/
  expectedLen_eq : receiver.frame.expectedLen = reply.expectedLen
  /-- The reply that is held differs from it in what was received at most. -/
  cleared_eq : receiver.reply.cleared = reply.cleared

theorem waitsFor_ofReply (reply : Reply) : (ofReply reply).WaitsFor reply :=
  ⟨rfl, rfl⟩

section Receive

variable {receiver : Receiver} {reply : Reply}

/-- Whatever the frame held, reading ends as it does for a new reply, and keeps the length that is
due. -/
theorem WaitsFor.exists_exec_read (h : receiver.WaitsFor reply) (message : List UInt8) :
    ∃ frame : Frame maxFrameLen, frame.expectedLen = reply.expectedLen ∧
      (receiver.reply.read message).exec receiver.frame = (reply.decode message, frame) := by
  refine ⟨((receiver.reply.read message).exec receiver.frame).2, ?_, ?_⟩
  · rw [Reply.keepsExpectedLen_read, h.expectedLen_eq]
  · rw [Reply.read_congr h.cleared_eq, Reply.exec_read, h.expectedLen_eq]
    rfl

/-- **One message**: its outcome is that of a new receiver, and the reply that is held is the one
that the message fills, or the one from before if the message is refused. -/
theorem WaitsFor.receive_eq (h : receiver.WaitsFor reply) (message : List UInt8) :
    (receiver.receive message).1 = (reply.decode message).map (fun _ => ()) ∧
      (receiver.receive message).2.reply =
        match reply.decode message with
        | .ok filled => filled
        | .error _ => receiver.reply := by
  obtain ⟨frame, -, hexec⟩ := h.exists_exec_read message
  rw [receive, hexec]
  cases reply.decode message with
  | ok filled => exact ⟨rfl, rfl⟩
  | error e => exact ⟨rfl, rfl⟩

/-- What is waited for carries over. -/
theorem WaitsFor.receive (h : receiver.WaitsFor reply) (message : List UInt8) :
    (receiver.receive message).2.WaitsFor reply := by
  obtain ⟨frame, hframe, hexec⟩ := h.exists_exec_read message
  rw [Receiver.receive, hexec]
  cases hdecode : reply.decode message with
  | ok filled => exact ⟨hframe, (Reply.decode_eq_ok_iff.mp hdecode).1⟩
  | error e => exact ⟨hframe, h.cleared_eq⟩

end Receive

/-! ### After any messages -/

theorem run_concat (receiver : Receiver) (messages : List (List UInt8)) (message : List UInt8) :
    receiver.run (messages ++ [message]) = ((receiver.run messages).receive message).2 := by
  rw [run, List.foldl_append]
  rfl

/-- After any messages a receiver waits for what it was made for, and holds what the last accepted
message filled in. -/
theorem run_ofReply (reply : Reply) (messages : List (List UInt8)) :
    ((ofReply reply).run messages).WaitsFor reply ∧
      ((ofReply reply).run messages).reply = reply.lastAccepted messages := by
  induction messages using List.reverseRecOn with
  | nil => exact ⟨waitsFor_ofReply reply, rfl⟩
  | append_singleton messages message ih =>
    obtain ⟨hwaits, hreply⟩ := ih
    rw [run_concat, Reply.lastAccepted_concat, (hwaits.receive_eq message).2, hreply]
    exact ⟨hwaits.receive message, rfl⟩

/-- A step of a session takes in its message where the messages before it left the receiver. -/
theorem session_getElem? (receiver : Receiver) (earlier : List (List UInt8))
    (message : List UInt8) (later : List (List UInt8)) :
    (receiver.session (earlier ++ message :: later))[earlier.length]? =
      some ((receiver.run earlier).receive message) := by
  induction earlier generalizing receiver with
  | nil => rfl
  | cons first earlier ih => exact ih (receiver.receive first).2

/-- **A receiver does not depend on what it was sent before**: in a session of any messages each of
them has the outcome that it has for a new receiver. The length that is due stays, and so does what
is waited for, and after each message the reply that is held is the one that the last accepted
message fills, or the first one if none was accepted. -/
theorem session_independent (reply : Reply) (earlier : List (List UInt8)) (message : List UInt8)
    (later : List (List UInt8)) :
    ∃ receiver : Receiver,
      ((ofReply reply).session (earlier ++ message :: later))[earlier.length]? =
          some (((ofReply reply).receive message).1, receiver) ∧
        receiver.frame.expectedLen = reply.expectedLen ∧
        receiver.reply.cleared = reply.cleared ∧
        receiver.reply = reply.lastAccepted (earlier ++ [message]) := by
  obtain ⟨hwaits, -⟩ := run_ofReply reply earlier
  obtain ⟨hafter, hreply⟩ := run_ofReply reply (earlier ++ [message])
  rw [run_concat] at hafter hreply
  refine ⟨_, ?_, hafter.expectedLen_eq, hafter.cleared_eq, hreply⟩
  rw [session_getElem?, ((waitsFor_ofReply reply).receive_eq message).1,
    ← (hwaits.receive_eq message).1]

end Receiver

end Modbus
