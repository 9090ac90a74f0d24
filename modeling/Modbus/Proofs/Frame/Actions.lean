import Modbus.Frame.Session
import Modbus.Proofs.Frame.Reading

/-!
# What an action does to a frame

One equation for every kind of action. An action that puts bytes behind the others
(`Frame.appended`) does so with all of them or with none; words go in one by one, as many as there
is room for (`Frame.perform_words`); a message that is loaded takes the place of the old one even if
it is too long itself (`Frame.perform_load`); one that is accepted is opened, and one that is
refused (`Frame.Refuses`) stays as it is (`Frame.perform_validate_cases`); and an action that reads
(`Frame.Action.reads`) takes its bytes from the end of the unread part, if there are enough.
-/

namespace Modbus

namespace Codec

variable {capacity : Nat}

/-- What a step hands out may be put into another form. -/
theorem exec_bind_pure {α β : Type} (step : Codec capacity α) (form : α → β)
    (frame : Frame capacity) :
    (step >>= fun a => pure (form a)).exec frame =
      ((step.exec frame).1.map form, (step.exec frame).2) := by
  rw [exec_bind]
  rcases step.exec frame with ⟨e | a, after⟩
  · rfl
  · rfl

/-- **Words go in one by one**: all of them if there is room, and else as many as there is. -/
theorem exec_words (values : List UInt16) (frame : Frame capacity) :
    (words values).exec frame =
      if 2 * values.length ≤ capacity - frame.bytes.length then
        (.ok (), { frame with bytes := frame.bytes ++ wordsBytes values })
      else
        (.error .outOfBuffer, { frame with
          bytes := frame.bytes ++
            wordsBytes (values.take ((capacity - frame.bytes.length) / 2)) }) := by
  induction values generalizing frame with
  | nil => simp [words]
  | cons value values ih =>
    rw [words, word, List.length_cons]
    by_cases hroom : frame.bytes.length + (wordBytes value).length ≤ capacity
    · have hfirst : (write (wordBytes value)).exec frame =
          (.ok (), { frame with bytes := frame.bytes ++ wordBytes value }) := by
        rw [exec_write, if_pos hroom]
      have hleft : capacity - (frame.bytes ++ wordBytes value).length =
          capacity - frame.bytes.length - 2 := by
        rw [List.length_append, length_wordBytes]
        omega
      rw [length_wordBytes] at hroom
      rw [exec_bind_of_ok hfirst, ih, hleft]
      by_cases hall : 2 * (values.length + 1) ≤ capacity - frame.bytes.length
      · rw [if_pos hall, if_pos (by omega)]
        simp
      · have hcount : (capacity - frame.bytes.length) / 2 =
            (capacity - frame.bytes.length - 2) / 2 + 1 := by omega
        rw [if_neg hall, if_neg (by omega), hcount]
        simp
    · have hfirst : (write (wordBytes value)).exec frame = (.error .outOfBuffer, frame) := by
        rw [exec_write, if_neg hroom]
      rw [length_wordBytes] at hroom
      have hnone : (capacity - frame.bytes.length) / 2 = 0 := by omega
      rw [exec_bind_of_error hfirst, if_neg (by omega), hnone]
      simp

end Codec

namespace Frame

variable {capacity : Nat}

/-! ### Kinds of actions -/

/-- The bytes that an action puts behind those of a frame, all of them or none. -/
def appended (frame : Frame capacity) : Action → Option (List UInt8)
  | .byte value => some [value]
  | .word value => some (wordBytes value)
  | .write data => some data
  | .close => some (crcTrailer (crc16 frame.bytes))
  | _ => none

/-- The field that an action reads, and how many bytes the field has. -/
def Action.reads : Action → Option (String × Nat)
  | .takeByte field => some (field, 1)
  | .takeWord field => some (field, 2)
  | .takeWords field count => some (field, 2 * count)
  | _ => none

/-- What an action that reads makes of the bytes of its field. -/
def Action.handsOut (bytes : List UInt8) : Action → Outcome
  | .takeByte _ => .byte (bytes.headD 0)
  | .takeWord _ => .word ((wordsOfBytes bytes).headD 0)
  | .takeWords _ _ => .words (wordsOfBytes bytes)
  | _ => .done

/-! ### Writing -/

theorem perform_of_appended {frame : Frame capacity} {action : Action} {data : List UInt8}
    (h : frame.appended action = some data) :
    frame.perform action =
      if frame.bytes.length + data.length ≤ capacity then
        (.ok .done, { frame with bytes := frame.bytes ++ data })
      else (.error .outOfBuffer, frame) := by
  have hwrite : frame.perform action =
      (((Codec.write data).exec frame).1.map fun _ => .done,
        ((Codec.write data).exec frame).2) := by
    cases action with
    | byte | word | write | close =>
      obtain rfl := Option.some.inj h
      exact Codec.exec_bind_pure _ _ frame
    | _ => cases h
  rw [hwrite, Codec.exec_write]
  split
  · rfl
  · rfl

theorem perform_words (frame : Frame capacity) (values : List UInt16) :
    frame.perform (.words values) =
      if 2 * values.length ≤ capacity - frame.bytes.length then
        (.ok .done, { frame with bytes := frame.bytes ++ wordsBytes values })
      else
        (.error .outOfBuffer, { frame with
          bytes := frame.bytes ++
            wordsBytes (values.take ((capacity - frame.bytes.length) / 2)) }) := by
  have hwords : frame.perform (.words values) = _ := Codec.exec_bind_pure _ _ frame
  rw [hwords, Codec.exec_words]
  split
  · rfl
  · rfl

theorem perform_patch (frame : Frame capacity) (index : Nat) (value : UInt8) :
    frame.perform (.patch index value) =
      if index < frame.bytes.length then
        (.ok .done, { frame with bytes := frame.bytes.set index value })
      else (.error .outOfBuffer, frame) := by
  have hpatch : frame.perform (.patch index value) = _ := Codec.exec_bind_pure _ _ frame
  rw [hpatch, Codec.exec_patch]
  split
  · rfl
  · rfl

/-! ### Taking in a message -/

@[simp] theorem perform_clear (frame : Frame capacity) :
    frame.perform .clear = (.ok .done, { expectedLen := frame.expectedLen }) := rfl

theorem perform_load (frame : Frame capacity) (data : List UInt8) :
    frame.perform (.load data) =
      if maxFrameLen < data.length then
        (.error (.frameLength frame.expectedLen data.length), { expectedLen := frame.expectedLen })
      else if data.length ≤ capacity then
        (.ok .done, { expectedLen := frame.expectedLen, bytes := data })
      else (.error .outOfBuffer, { expectedLen := frame.expectedLen }) := by
  have hload : frame.perform (.load data) = _ := Codec.exec_bind_pure _ _ frame
  rw [hload, Codec.exec_load, Codec.exec_write, List.length_nil, Nat.zero_add, List.nil_append]
  split
  · rfl
  · split
    · rfl
    · rfl

/-! ### Accepting a message -/

/-- Why the message in a frame is not accepted. -/
inductive Refuses (frame : Frame capacity) : WireError → Prop
  /-- It is a refusal, and its length is not the one that is due. -/
  | refusal {sender function code : UInt8} (hdue : frame.expectedLen ≠ exceptionFrameLen)
    (hbytes : frame.bytes = sealed [sender, function, code])
    (hflag : function &&& exceptionFlag ≠ 0) :
    Refuses frame (.exception (function &&& ~~~exceptionFlag) (.ofByte code))
  /-- It is no refusal, and does not have the length that is due, or no room for a check. -/
  | wrongLength (hregular : ¬ IsRefusal frame.bytes)
    (hlength : frame.bytes.length ≠ frame.expectedLen ∨ frame.bytes.length < crcLen) :
    Refuses frame (.frameLength frame.expectedLen frame.bytes.length)
  /-- It has the length that is due, and its last two bytes are not the check of the others. -/
  | wrongCheck {body : List UInt8} {low high : UInt8} (hbytes : frame.bytes = body ++ [low, high])
    (hlength : frame.bytes.length = frame.expectedLen)
    (hcheck : crc16 body ≠ wordOfBytes high low) :
    Refuses frame (.crcMismatch (crc16 body) (wordOfBytes high low))

theorem Refuses.exec_validate {frame : Frame capacity} {e : WireError} (h : frame.Refuses e) :
    Codec.validate.exec frame = (.error e, frame) := by
  cases h with
  | refusal hdue hbytes hflag => exact Codec.exec_validate_refusal hdue hbytes hflag
  | wrongLength hregular hlength =>
    rw [Codec.exec_validate, exception?_eq_none_of_not_isRefusal hregular]
    exact if_pos hlength
  | wrongCheck hbytes hlength hcheck =>
    exact Codec.exec_validate_wrongCheck hbytes hlength hcheck

/-- A message that is not accepted is refused for one of these reasons. -/
theorem exists_refuses_or_sealed (frame : Frame capacity) :
    (∃ e, frame.Refuses e) ∨
      ∃ body, frame.bytes = sealed body ∧ frame.expectedLen = body.length + crcLen := by
  by_cases hrefusal : IsRefusal frame.bytes
  · obtain ⟨sender, function, code, hbytes, hflag⟩ := hrefusal
    by_cases hdue : frame.expectedLen = exceptionFrameLen
    · exact .inr ⟨_, hbytes, hdue⟩
    · exact .inl ⟨_, .refusal hdue hbytes hflag⟩
  · by_cases hlength : frame.bytes.length ≠ frame.expectedLen ∨ frame.bytes.length < crcLen
    · exact .inl ⟨_, .wrongLength hrefusal hlength⟩
    · have hroom : crcLen ≤ frame.bytes.length := by omega
      obtain ⟨body, low, high, hbytes⟩ := exists_eq_append_pair hroom
      by_cases hcheck : crc16 body = wordOfBytes high low
      · refine .inr ⟨body, hbytes.trans (append_pair_eq_sealed_iff.mpr ⟨rfl, hcheck⟩), ?_⟩
        have hbody : frame.bytes.length = body.length + crcLen := by
          rw [hbytes, List.length_append]
          rfl
        omega
      · exact .inl ⟨_, .wrongCheck hbytes (by omega) hcheck⟩

theorem Refuses.perform_validate {frame : Frame capacity} {e : WireError} (h : frame.Refuses e) :
    frame.perform .validate = (.error e, frame) := by
  refine (Codec.exec_bind_pure _ _ frame).trans ?_
  rw [h.exec_validate]
  rfl

theorem perform_validate_of_sealed {frame : Frame capacity} {body : List UInt8}
    (hbody : frame.bytes = sealed body) (hlength : frame.expectedLen = body.length + crcLen) :
    frame.perform .validate = (.ok .done, { frame with remaining := body.length }) := by
  refine (Codec.exec_bind_pure _ _ frame).trans ?_
  rw [Codec.exec_validate_eq_ok_iff.mpr ⟨body, hbody, hlength, rfl⟩, opened, hbody, sealed]
  rfl

/-- A message that is accepted is sealed and of the length that is due, and all of its body is
unread; one that is refused stays as it is. -/
theorem perform_validate_cases (frame : Frame capacity) :
    (∃ body, frame.bytes = sealed body ∧ frame.expectedLen = body.length + crcLen ∧
      frame.perform .validate = (.ok .done, { frame with remaining := body.length })) ∨
    ∃ e, frame.Refuses e ∧ frame.perform .validate = (.error e, frame) := by
  rcases exists_refuses_or_sealed frame with ⟨e, hrefuses⟩ | ⟨body, hbody, hlength⟩
  · exact .inr ⟨e, hrefuses, hrefuses.perform_validate⟩
  · exact .inl ⟨body, hbody, hlength, perform_validate_of_sealed hbody hlength⟩

/-! ### Reading -/

/-- An action that reads takes the bytes of its field and puts them into form. -/
theorem Action.step_of_reads {action : Action} {field : String} {size : Nat}
    (h : action.reads = some (field, size)) :
    (action.step : Codec capacity Outcome) =
      Codec.take field size >>= fun bytes => pure (action.handsOut bytes) := by
  cases action with
  | takeByte | takeWord | takeWords =>
    cases h
    exact bind_assoc _ _ _
  | _ => cases h

theorem perform_of_reads {frame : Frame capacity} {action : Action} {field : String} {size : Nat}
    (h : action.reads = some (field, size)) :
    frame.perform action =
      if frame.remaining < size then (.error (.underflow field), frame)
      else
        (.ok (action.handsOut ((frame.bytes.drop (frame.remaining - size)).take size)),
          { frame with remaining := frame.remaining - size }) := by
  rw [perform, Action.step_of_reads h, Codec.exec_bind_pure, Codec.exec_take]
  split
  · rfl
  · rfl

/-- Where nothing is unread, reading a field of any bytes fails and changes nothing. -/
theorem perform_of_exhausted {frame : Frame capacity} (h : frame.remaining = 0) {action : Action}
    {field : String} {size : Nat} (hreads : action.reads = some (field, size)) (hsize : 0 < size) :
    frame.perform action = (.error (.underflow field), frame) := by
  rw [perform_of_reads hreads, h, if_pos hsize]

/-! ### Outcomes of a session -/

/-- The outcomes of a list of actions. -/
def outcomes (frame : Frame capacity) (actions : List Action) : List (Except WireError Outcome) :=
  (frame.session actions).map Prod.fst

theorem outcomes_cons (frame : Frame capacity) (action : Action) (actions : List Action) :
    frame.outcomes (action :: actions) =
      (frame.perform action).1 :: (frame.perform action).2.outcomes actions := rfl

theorem run_cons (frame : Frame capacity) (action : Action) (actions : List Action) :
    frame.run (action :: actions) = (frame.perform action).2.run actions := rfl

theorem run_append (frame : Frame capacity) (first second : List Action) :
    frame.run (first ++ second) = (frame.run first).run second :=
  List.foldl_append

theorem outcomes_append (frame : Frame capacity) (first second : List Action) :
    frame.outcomes (first ++ second) =
      frame.outcomes first ++ (frame.run first).outcomes second := by
  induction first generalizing frame with
  | nil => rfl
  | cons action first ih =>
    rw [List.cons_append, outcomes_cons, outcomes_cons, run_cons, ih, List.cons_append]

end Frame

end Modbus
