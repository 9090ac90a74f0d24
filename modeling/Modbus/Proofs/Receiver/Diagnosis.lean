import Modbus.Proofs.Receiver.Checked
import Modbus.Proofs.Reply.Grammar

/-!
# What is wrong with a refused message

`Reply.Diagnosis` says what is wrong with a message, without looking into a frame: it is longer than
any message, or a refusal of the command, or not of the length that is due, or its check does not
belong to it, or the first of its fields that does not hold what it should. A reply that was made
for a command refuses a message exactly with its diagnosis (`Reply.decode_eq_error_iff`).

Nothing else ever goes wrong: no field is read beyond the unread part of the message, and all of it
is used up when the last one has been read. No index on the way is outside of the message
(`Receiver.receiveWithin?_eq`). `Receiver.refusals_are_diagnosed` says all this of a receiver that
may have taken in any messages before.
-/

namespace Modbus

/-! ### The first field that fails -/

/-- Checking stops at the first field that does not hold what is expected. -/
theorem checkAll_eq_error_iff {fields : List Field} {e : WireError} :
    checkAll fields = .error e ↔
      ∃ before field after, fields = before ++ field :: after ∧
        (∀ earlier ∈ before, earlier.actual = earlier.expected) ∧
          field.actual ≠ field.expected ∧
            e = .badResponse field.name field.expected field.actual := by
  induction fields with
  | nil => simp [checkAll]
  | cons first fields ih =>
    rw [checkAll]
    by_cases hfirst : first.actual = first.expected
    · have hpass : checkField first.name first.actual first.expected = .ok () :=
        checkField_eq_ok_iff.mpr hfirst
      rw [hpass, Except.bind, ih]
      constructor
      · rintro ⟨before, field, after, rfl, hbefore, hfield, he⟩
        refine ⟨first :: before, field, after, rfl, ?_, hfield, he⟩
        exact List.forall_mem_cons.mpr ⟨hfirst, hbefore⟩
      · rintro ⟨before, field, after, hfields, hbefore, hfield, he⟩
        cases before with
        | nil =>
          obtain ⟨rfl, -⟩ := List.cons.inj hfields
          exact absurd hfirst hfield
        | cons other before =>
          obtain ⟨-, hrest⟩ := List.cons.inj hfields
          exact ⟨before, field, after, hrest, (List.forall_mem_cons.mp hbefore).2, hfield, he⟩
    · have hfail : checkField first.name first.actual first.expected =
          .error (.badResponse first.name first.expected first.actual) := if_neg hfirst
      rw [hfail, Except.bind, Except.error.injEq]
      constructor
      · rintro rfl
        exact ⟨[], first, fields, rfl, by simp, hfirst, rfl⟩
      · rintro ⟨before, field, after, hfields, hbefore, hfield, rfl⟩
        cases before with
        | nil =>
          obtain ⟨rfl, -⟩ := List.cons.inj hfields
          rfl
        | cons other before =>
          obtain ⟨rfl, -⟩ := List.cons.inj hfields
          exact absurd ((List.forall_mem_cons.mp hbefore).1) hfirst

namespace Reply

/-! ### Replies that are waited for -/

/-- A reply as it is made for a command. -/
inductive Made : Reply → Prop
  | readHolding {device : UInt8} {count : UInt16} {reply : Reply}
    (h : ofReadHolding device count = .ok reply) : Made reply
  | writeSingle (device : UInt8) (register : UInt16) (expected : Option UInt16) :
    Made (ofWriteSingle device register expected)
  | writeMultiple (device : UInt8) (start count : UInt16) :
    Made (ofWriteMultiple device start count)
  | readRecords {device : UInt8} {records : List FileRecord} {reply : Reply}
    (h : ofReadRecords device records = .ok reply) : Made reply

/-- A reply that is waited for is longer than a refusal, and fits a message. -/
theorem Made.expectedLen_bounds {reply : Reply} (h : reply.Made) :
    exceptionFrameLen < reply.expectedLen ∧ reply.expectedLen ≤ maxFrameLen := by
  cases h with
  | readHolding h =>
    obtain ⟨hpos, hle, rfl⟩ := ofReadHolding_eq_ok_iff.mp h
    rw [expectedLen, List.length_replicate, exceptionFrameLen, maxFrameLen]
    omega
  | writeSingle | writeMultiple => exact ⟨(by decide : 5 < 8), (by decide : 8 ≤ maxFrameLen)⟩
  | readRecords h =>
    obtain ⟨hrecords, hfit, rfl⟩ := ofReadRecords_eq_ok_iff.mp h
    obtain ⟨record, records, rfl⟩ := List.exists_cons_of_ne_nil hrecords
    refine ⟨?_, hfit⟩
    rw [expectedLen, FileRecord.replyLen, exceptionFrameLen]
    omega

/-! ### Diagnosis -/

/-- What is wrong with a message where a reply is waited for. -/
inductive Diagnosis (reply : Reply) (message : List UInt8) : WireError → Prop
  /-- Nothing longer than a message is looked into. -/
  | oversized (hlong : maxFrameLen < message.length) :
    Diagnosis reply message (.frameLength reply.expectedLen message.length)
  /-- The device refuses the command. -/
  | refused {sender function code : UInt8} (hmessage : message = sealed [sender, function, code])
    (hflag : function &&& exceptionFlag ≠ 0) :
    Diagnosis reply message (.exception (function &&& 0x7F) (.ofByte code))
  /-- Any other message must have the length that is due. -/
  | wrongLength (hshort : message.length ≤ maxFrameLen) (hregular : ¬ IsRefusal message)
    (hlength : message.length ≠ reply.expectedLen) :
    Diagnosis reply message (.frameLength reply.expectedLen message.length)
  /-- The last two bytes, the low one first, are not the check of the others. -/
  | wrongCheck {body : List UInt8} {low high : UInt8} (hmessage : message = body ++ [low, high])
    (hlength : message.length = reply.expectedLen) (hcheck : crc16 body ≠ wordOfBytes high low) :
    Diagnosis reply message (.crcMismatch (crc16 body) (wordOfBytes high low))
  /-- The fields before this one hold what they should, and it does not. -/
  | wrongField {body : List UInt8} {before : List Field} {field : Field} {after : List Field}
    (hmessage : message = sealed body) (hlength : message.length = reply.expectedLen)
    (hfields : reply.fields body = before ++ field :: after)
    (hbefore : ∀ earlier ∈ before, earlier.actual = earlier.expected)
    (hfield : field.actual ≠ field.expected) :
    Diagnosis reply message (.badResponse field.name field.expected field.actual)

section Decode

variable {reply : Reply} {message : List UInt8}

theorem decode_of_oversized (hlong : maxFrameLen < message.length) :
    reply.decode message = .error (.frameLength reply.expectedLen message.length) := by
  have hload : (Codec.load message : Codec maxFrameLen Unit).exec
      { expectedLen := reply.expectedLen } =
        (.error (.frameLength reply.expectedLen message.length),
          { expectedLen := reply.expectedLen }) := by
    rw [Codec.exec_load, if_pos hlong]
  rw [decode, read, Codec.exec_bind_of_error hload]

/-- A message that is loaded but does not pass is refused for why it does not. -/
theorem decode_of_invalid (hshort : message.length ≤ maxFrameLen) {e : WireError}
    {frame : Frame maxFrameLen}
    (hinvalid : (Codec.validate : Codec maxFrameLen Unit).exec
      { expectedLen := reply.expectedLen, bytes := message } = (.error e, frame)) :
    reply.decode message = .error e := by
  have hload : (Codec.load message : Codec maxFrameLen Unit).exec
      { expectedLen := reply.expectedLen } =
        (.ok (), { expectedLen := reply.expectedLen, bytes := message }) :=
    Codec.exec_load_eq_ok_iff.mpr ⟨hshort, hshort, rfl⟩
  rw [decode, read, Codec.exec_bind_of_ok hload, Codec.exec_bind_of_error hinvalid]

/-- A message is refused for its diagnosis. -/
theorem Diagnosis.decode_eq {e : WireError} (h : reply.Diagnosis message e)
    (hmade : reply.Made) : reply.decode message = .error e := by
  obtain ⟨hlong, hfit⟩ := hmade.expectedLen_bounds
  have hdue : reply.expectedLen ≠ exceptionFrameLen := Nat.ne_of_gt hlong
  cases h with
  | oversized hoversized => exact decode_of_oversized hoversized
  | refused hmessage hflag =>
    have hshort : message.length ≤ maxFrameLen := by
      rw [hmessage]
      exact (by decide : 5 ≤ maxFrameLen)
    exact decode_of_invalid hshort (Codec.exec_validate_refusal hdue hmessage hflag)
  | wrongLength hshort hregular hlength =>
    exact decode_of_invalid hshort (Codec.exec_validate_wrongLength hregular hlength)
  | wrongCheck hmessage hlength hcheck =>
    exact decode_of_invalid (hlength ▸ hfit)
      (Codec.exec_validate_wrongCheck hmessage hlength hcheck)
  | @wrongField body before field after hmessage hlength hfields hbefore hfield =>
    have hbody : body.length + crcLen = reply.expectedLen := by
      rw [← hlength, hmessage, length_sealed, crcLen]
    have hchecks : checkAll (reply.fields body) =
        .error (.badResponse field.name field.expected field.actual) :=
      checkAll_eq_error_iff.mpr ⟨before, field, after, hfields, hbefore, hfield, rfl⟩
    rw [hmessage, decode_sealed hbody hfit, hchecks]
    rfl

/-- A message of the length that is due has a diagnosis or is accepted. -/
theorem exists_diagnosis_or_accepted (hmade : reply.Made)
    (hlength : message.length = reply.expectedLen) :
    (∃ e, reply.Diagnosis message e) ∨ ∃ filled, reply.decode message = .ok filled := by
  obtain ⟨hlong, hfit⟩ := hmade.expectedLen_bounds
  have hroom : crcLen ≤ message.length := by
    rw [hlength, crcLen]
    rw [exceptionFrameLen] at hlong
    omega
  obtain ⟨body, low, high, hmessage⟩ := exists_eq_append_pair hroom
  by_cases hcheck : crc16 body = wordOfBytes high low
  · have hsealed : message = sealed body :=
      hmessage.trans (append_pair_eq_sealed_iff.mpr ⟨rfl, hcheck⟩)
    have hbody : body.length + crcLen = reply.expectedLen := by
      rw [← hlength, hsealed, length_sealed, crcLen]
    cases hchecks : checkAll (reply.fields body) with
    | ok u =>
      right
      refine ⟨reply.fill body, ?_⟩
      rw [hsealed, decode_sealed hbody hfit, hchecks]
      rfl
    | error e =>
      left
      obtain ⟨before, field, after, hfields, hbefore, hfield, rfl⟩ :=
        checkAll_eq_error_iff.mp hchecks
      exact ⟨_, .wrongField hsealed hlength hfields hbefore hfield⟩
  · exact .inl ⟨_, .wrongCheck hmessage hlength hcheck⟩

/-- **A refused message has its diagnosis as the reason**, and no other. -/
theorem decode_eq_error_iff (hmade : reply.Made) {e : WireError} :
    reply.decode message = .error e ↔ reply.Diagnosis message e := by
  refine ⟨fun h => ?_, fun h => h.decode_eq hmade⟩
  have hdiagnosed : ∀ {e'}, reply.Diagnosis message e' → reply.Diagnosis message e := by
    intro e' h'
    obtain rfl : e' = e := Except.error.inj ((h'.decode_eq hmade).symm.trans h)
    exact h'
  by_cases hoversized : maxFrameLen < message.length
  · exact hdiagnosed (.oversized hoversized)
  by_cases hrefusal : IsRefusal message
  · obtain ⟨sender, function, code, hmessage, hflag⟩ := hrefusal
    exact hdiagnosed (.refused hmessage hflag)
  by_cases hlength : message.length = reply.expectedLen
  · obtain ⟨e', h'⟩ | ⟨filled, hfilled⟩ := exists_diagnosis_or_accepted hmade hlength
    · exact hdiagnosed h'
    · exact absurd (hfilled.symm.trans h) (by simp)
  · exact hdiagnosed (.wrongLength (Nat.le_of_not_lt hoversized) hrefusal hlength)

/-! ### What never goes wrong -/

/-- The fields of file records are their references and their sizes. -/
theorem name_of_mem_recordFields {records : List FileRecord} {bytes : List UInt8} {field : Field}
    (h : field ∈ recordFields records bytes) :
    field.name = "reference" ∨ field.name = "field_size" := by
  fun_induction recordFields records bytes with
  | case1 record records fieldSize reference bytes ih =>
    rcases List.mem_append.mp h with hlater | hown
    · exact ih hlater
    · rcases List.mem_pair.mp hown with rfl | rfl
      · exact .inl rfl
      · exact .inr rfl
  | case2 => simp at h

/-- That nothing stands before the device is never what fails. -/
theorem name_ne_length {body : List UInt8} {field : Field} (h : field ∈ reply.fields body) :
    field.name ≠ "length" := by
  intro hname
  unfold fields at h
  split at h
  · simp only [List.mem_cons, List.not_mem_nil, or_false] at h
    rcases h with rfl | rfl | rfl <;> simp at hname
  · rcases List.mem_append.mp h with h | h
    · simp only [List.mem_cons, List.not_mem_nil, or_false] at h
      rcases h with rfl | rfl | rfl <;> simp at hname
    · rw [Option.mem_toList, Option.map_eq_some_iff] at h
      obtain ⟨due, -, rfl⟩ := h
      simp at hname
  · simp only [List.mem_cons, List.not_mem_nil, or_false] at h
    rcases h with rfl | rfl | rfl | rfl <;> simp at hname
  · rcases List.mem_append.mp h with h | h
    · rcases name_of_mem_recordFields h with h | h <;> simp [h] at hname
    · simp only [List.mem_cons, List.not_mem_nil, or_false] at h
      rcases h with rfl | rfl | rfl <;> simp at hname
  · simp at h

/-- Messages do not run out of bytes or of room, and have none left before the device. -/
theorem Diagnosis.not_exhausted {e : WireError} (h : reply.Diagnosis message e) :
    (∀ what, e ≠ .underflow what) ∧ e ≠ .outOfBuffer ∧
      ∀ expected actual, e ≠ .badResponse "length" expected actual := by
  cases h with
  | oversized | refused | wrongLength | wrongCheck => simp
  | @wrongField body before field after hmessage hlength hfields hbefore hfield =>
    refine ⟨by simp, by simp, fun expected actual heq => ?_⟩
    have hmem : field ∈ reply.fields body := by simp [hfields]
    exact name_ne_length hmem (WireError.badResponse.inj heq).1

end Decode

/-- A message is not read beyond its bytes. -/
theorem staysInside_read (reply : Reply) (message : List UInt8) :
    (reply.read message).StaysInside :=
  .bind (Codec.staysInside_load message) fun _ =>
    .bind Codec.staysInside_validate fun _ => (onlyReads_take reply).staysInside

end Reply

namespace Receiver

theorem inside_receive {receiver : Receiver}
    (h : receiver.frame.remaining ≤ receiver.frame.bytes.length) (message : List UInt8) :
    (receiver.receive message).2.frame.remaining ≤
      (receiver.receive message).2.frame.bytes.length := by
  have hinside := receiver.reply.staysInside_read message receiver.frame h
  rw [receive]
  rcases hread : (receiver.reply.read message).exec receiver.frame with ⟨e | filled, frame⟩
  · rw [hread] at hinside
    exact hinside
  · rw [hread] at hinside
    exact hinside

/-- What is unread is a part of the last message, after any messages. -/
theorem inside_run (reply : Reply) (messages : List (List UInt8)) :
    ((ofReply reply).run messages).frame.remaining ≤
      ((ofReply reply).run messages).frame.bytes.length := by
  induction messages using List.reverseRecOn with
  | nil => exact Nat.le_refl 0
  | append_singleton messages message ih =>
    rw [run_concat]
    exact inside_receive ih message

/-- **Every refused message is diagnosed**: a receiver that waits for a reply to a command, and has
taken in any messages, refuses a message exactly with its diagnosis. It never runs out of bytes or
of room, never has bytes left before the device, and never leaves more unread than there is. No
action on the way uses an index outside of the message or a negative length: with all of them
checked, the message is taken in alike. -/
theorem refusals_are_diagnosed {reply : Reply} (hmade : reply.Made)
    (earlier : List (List UInt8)) (message : List UInt8) :
    let receiver := (ofReply reply).run earlier
    let received := receiver.receive message
    (∀ e, received.1 = .error e ↔ reply.Diagnosis message e) ∧
      (∀ what, received.1 ≠ .error (.underflow what)) ∧
      received.1 ≠ .error .outOfBuffer ∧
      (∀ expected actual, received.1 ≠ .error (.badResponse "length" expected actual)) ∧
      received.2.frame.remaining ≤ received.2.frame.bytes.length ∧
      receiver.receiveWithin? message = some received := by
  intro receiver received
  have hreceived : ∀ e, received.1 = .error e ↔ reply.Diagnosis message e := by
    intro e
    rw [← Reply.decode_eq_error_iff hmade, ((run_ofReply reply earlier).1.receive_eq message).1]
    cases reply.decode message with
    | ok filled => simp [Except.map]
    | error e' => simp [Except.map]
  have hinside := inside_run reply earlier
  refine ⟨hreceived, fun what h => ?_, fun h => ?_, fun expected actual h => ?_,
    inside_receive hinside message, receiveWithin?_eq hinside message⟩
  · exact ((hreceived _).mp h).not_exhausted.1 what rfl
  · exact ((hreceived _).mp h).not_exhausted.2.1 rfl
  · exact ((hreceived _).mp h).not_exhausted.2.2 expected actual rfl

/-- After a message that is too short, the last of two records is found to have a wrong reference;
the wrong size of the first one is not looked at any more. -/
theorem refusals_are_diagnosed_wrong_reference :
    (Reply.file 0x11 [.blank 4 1 1, .blank 3 9 1]).Made ∧
      (((ofReply (.file 0x11 [.blank 4 1 1, .blank 3 9 1])).run [[0x11]]).receive
        (sealed [0x11, 0x14, 0x08, 0x05, 0x06, 0x0D, 0xFE, 0x03, 0x07, 0x33, 0xCD])).1 =
          .error (.badResponse "reference" 6 7) := by
  have hreply : Reply.ofReadRecords 0x11 [.blank 4 1 1, .blank 3 9 1] =
      .ok (.file 0x11 [.blank 4 1 1, .blank 3 9 1]) := rfl
  have hfields : (Reply.file 0x11 [.blank 4 1 1, .blank 3 9 1]).fields
      [0x11, 0x14, 0x08, 0x05, 0x06, 0x0D, 0xFE, 0x03, 0x07, 0x33, 0xCD] =
        [] ++ ⟨"reference", 7, 6⟩ :: _ := rfl
  refine ⟨.readRecords hreply,
    ((refusals_are_diagnosed (.readRecords hreply) [[0x11]] _).1 _).mpr ?_⟩
  exact .wrongField rfl rfl hfields (by simp) (by decide)

end Receiver

end Modbus
