import Mathlib.Data.List.Basic
import Modbus.Frame.Basic

/-!
# Taking a received frame apart

A message is accepted by `Codec.load` and `Codec.validate` exactly when it is *sealed*, a body
followed by its check, and has the length that is due (`exec_load_eq_ok_iff`,
`exec_validate_eq_ok_iff`). The frame is then `Frame.opened`: a part of its bytes is unread and the
bytes behind that part have been read. Reading moves bytes from the end of the unread part to the
front of the others, so what a step hands out is what the unread part ends in (`exec_take_opened`
and its three forms for a byte, a word and words).

Reading touches nothing but the unread part of a frame, which can only shrink (`Codec.OnlyReads`).
No step touches the length that is due (`Codec.KeepsExpectedLen`), and none leaves more unread than
there is (`Codec.StaysInside`). All three are closed under sequencing (`Codec.rel_exec_bind`), so
that they carry over to whatever is built from the steps.
-/

namespace Modbus

/-! ### Sealed messages -/

/-- A message that has room for a check is a body and two more bytes. -/
theorem exists_eq_append_pair {bytes : List UInt8} (hroom : crcLen ≤ bytes.length) :
    ∃ body low high, bytes = body ++ [low, high] := by
  have hlast : (bytes.drop (bytes.length - crcLen)).length = 2 := by
    rw [List.length_drop]
    simp only [crcLen] at hroom ⊢
    omega
  obtain ⟨low, high, hlast⟩ := List.length_eq_two.mp hlast
  refine ⟨bytes.take (bytes.length - crcLen), low, high, ?_⟩
  rw [← hlast, List.take_append_drop]

/-- Two bytes seal what stands before them if they carry its check, the low byte first. -/
theorem append_pair_eq_sealed_iff {body bytes : List UInt8} {low high : UInt8} :
    body ++ [low, high] = sealed bytes ↔ body = bytes ∧ crc16 body = wordOfBytes high low := by
  constructor
  · intro h
    obtain ⟨rfl, htrailer⟩ := List.append_inj' h rfl
    exact ⟨rfl, by rw [← crcOfTrailer_crcTrailer (crc16 body), ← htrailer, crcOfTrailer]⟩
  · rintro ⟨rfl, hcrc⟩
    have htrailer : crcTrailer (wordOfBytes high low) = [low, high] :=
      crcTrailer_crcOfTrailer low high
    rw [sealed, hcrc, htrailer]

/-- A message is sealed exactly when it has room for a check and ends in the check of the rest. -/
theorem exists_eq_sealed_iff {bytes : List UInt8} :
    (∃ body, bytes = sealed body) ↔
      crcLen ≤ bytes.length ∧
        crc16 (bytes.take (bytes.length - crcLen)) =
          crcOfTrailer (bytes.drop (bytes.length - crcLen)) := by
  constructor
  · rintro ⟨body, rfl⟩
    have hlen : (sealed body).length - crcLen = body.length := by simp [crcLen]
    refine ⟨by simp [crcLen], ?_⟩
    rw [hlen, sealed, List.take_left, List.drop_left, crcOfTrailer_crcTrailer]
  · rintro ⟨hroom, hcrc⟩
    obtain ⟨body, low, high, rfl⟩ := exists_eq_append_pair hroom
    have hlen : (body ++ [low, high]).length - crcLen = body.length := by simp [crcLen]
    rw [hlen, List.take_left, List.drop_left, crcOfTrailer] at hcrc
    exact ⟨body, append_pair_eq_sealed_iff.mpr ⟨rfl, hcrc⟩⟩

/-- A sealed message has one body. -/
@[simp] theorem sealed_inj {first second : List UInt8} :
    sealed first = sealed second ↔ first = second := by
  constructor
  · intro h
    exact (List.append_inj' h rfl).1
  · rintro rfl
    rfl

/-- A refusal: device, function and reason, sealed, with the flag set on the function. -/
def IsRefusal (message : List UInt8) : Prop :=
  ∃ sender function code, message = sealed [sender, function, code] ∧ function &&& exceptionFlag ≠ 0

namespace Frame

variable {capacity : Nat}

/-- A frame with an unread part, behind which everything has been read. -/
def opened (expectedLen : Nat) (unread done : List UInt8) : Frame capacity :=
  { expectedLen, bytes := unread ++ done, remaining := unread.length }

@[simp] theorem opened_remaining (expectedLen : Nat) (unread done : List UInt8) :
    (opened expectedLen unread done : Frame capacity).remaining = unread.length := rfl

/-- A frame of the length that is due is not taken for a refusal. -/
theorem exception?_eq_none {frame : Frame capacity}
    (hlen : frame.bytes.length = frame.expectedLen) : frame.exception? = none := by
  unfold exception?
  split
  · next hbytes =>
    -- five bytes are no refusal when five are due
    have hdue : frame.expectedLen = exceptionFrameLen := by
      rw [← hlen, hbytes]
      rfl
    simp [hdue]
  · rfl

/-- A refusal is taken for one unless its length is due. -/
theorem exception?_eq_some {frame : Frame capacity} {sender function code : UInt8}
    (hdue : frame.expectedLen ≠ exceptionFrameLen)
    (hbytes : frame.bytes = sealed [sender, function, code])
    (hflag : function &&& exceptionFlag ≠ 0) :
    frame.exception? = some (function &&& ~~~exceptionFlag, .ofByte code) := by
  have hcrc : frame.computedCrc = frame.receivedCrc := (exists_eq_sealed_iff.mp ⟨_, hbytes⟩).2
  unfold exception?
  rw [hbytes]
  show (if _ then _ else _) = _
  rw [if_pos ⟨hdue, hflag, hcrc⟩]

/-- Nothing but a refusal is taken for one. -/
theorem exception?_eq_none_of_not_isRefusal {frame : Frame capacity}
    (hregular : ¬ IsRefusal frame.bytes) : frame.exception? = none := by
  unfold exception?
  split
  · next sender function code low high hbytes =>
    rw [if_neg]
    rintro ⟨-, hflag, hcrc⟩
    have hroom : crcLen ≤ frame.bytes.length := by
      rw [hbytes]
      exact Nat.le_add_left 2 3
    obtain ⟨body, hbody⟩ := exists_eq_sealed_iff.mpr ⟨hroom, hcrc⟩
    have hsplit : [sender, function, code] ++ [low, high] = sealed body := hbytes.symm.trans hbody
    obtain ⟨rfl, -⟩ := append_pair_eq_sealed_iff.mp hsplit
    exact hregular ⟨sender, function, code, hbody, hflag⟩
  · rfl

end Frame

namespace Codec

variable {capacity : Nat}

/-! ### Accepting a message -/

/-- **What is loaded**: every message that fits, in place of whatever the frame held. -/
theorem exec_load_eq_ok_iff {data : List UInt8} {frame frame' : Frame capacity} :
    (load data).exec frame = (.ok (), frame') ↔
      data.length ≤ maxFrameLen ∧ data.length ≤ capacity ∧
        frame' = { expectedLen := frame.expectedLen, bytes := data } := by
  rw [exec_load]
  split
  · next hlong =>
    have hnot : ¬ data.length ≤ maxFrameLen := by omega
    simp [hnot]
  · next hshort =>
    have hle : data.length ≤ maxFrameLen := by omega
    rw [exec_write]
    by_cases hcap : data.length ≤ capacity
    · simp [hle, hcap, eq_comm]
    · simp [hcap]

/-- **What is accepted**: the sealed messages of the length that is due. All of the body is
unread then. -/
theorem exec_validate_eq_ok_iff {frame frame' : Frame capacity} :
    validate.exec frame = (.ok (), frame') ↔
      ∃ body, frame.bytes = sealed body ∧ frame.expectedLen = body.length + crcLen ∧
        frame' = .opened frame.expectedLen body (crcTrailer (crc16 body)) := by
  constructor
  · intro h
    rw [exec_validate] at h
    rcases hexception : frame.exception? with _ | ⟨function, code⟩
    · simp only [hexception] at h
      split at h
      · simp at h
      · next hlen =>
        split at h
        · simp at h
        · next hcrc =>
          have hcrcLen : crcLen ≤ frame.bytes.length := by omega
          obtain ⟨body, hbody⟩ := exists_eq_sealed_iff.mpr ⟨hcrcLen, Decidable.not_not.mp hcrc⟩
          have hlength : frame.bytes.length = body.length + crcLen := by
            rw [hbody, length_sealed, crcLen]
          refine ⟨body, hbody, by omega, ?_⟩
          obtain ⟨-, rfl⟩ := Prod.mk.inj h
          rw [Frame.opened, hlength, Nat.add_sub_cancel, hbody, sealed]
    · simp [hexception] at h
  · rintro ⟨body, hbody, hexpected, rfl⟩
    have hlength : frame.bytes.length = body.length + crcLen := by
      rw [hbody, length_sealed, crcLen]
    have hcrc : frame.computedCrc = frame.receivedCrc :=
      (exists_eq_sealed_iff.mp ⟨body, hbody⟩).2
    rw [exec_validate, Frame.exception?_eq_none (hlength.trans hexpected.symm)]
    simp only
    rw [if_neg (by omega), if_neg (by simp [hcrc]), Frame.opened, hlength, Nat.add_sub_cancel,
      hbody, sealed]

/-! ### Refusing a message -/

theorem exec_validate_refusal {frame : Frame capacity} {sender function code : UInt8}
    (hdue : frame.expectedLen ≠ exceptionFrameLen)
    (hbytes : frame.bytes = sealed [sender, function, code])
    (hflag : function &&& exceptionFlag ≠ 0) :
    validate.exec frame =
      (.error (.exception (function &&& ~~~exceptionFlag) (.ofByte code)), frame) := by
  rw [exec_validate, Frame.exception?_eq_some hdue hbytes hflag]

theorem exec_validate_wrongLength {frame : Frame capacity} (hregular : ¬ IsRefusal frame.bytes)
    (hlength : frame.bytes.length ≠ frame.expectedLen) :
    validate.exec frame =
      (.error (.frameLength frame.expectedLen frame.bytes.length), frame) := by
  rw [exec_validate, Frame.exception?_eq_none_of_not_isRefusal hregular]
  exact if_pos (Or.inl hlength)

theorem exec_validate_wrongCheck {frame : Frame capacity} {body : List UInt8} {low high : UInt8}
    (hbytes : frame.bytes = body ++ [low, high])
    (hlength : frame.bytes.length = frame.expectedLen)
    (hcheck : crc16 body ≠ wordOfBytes high low) :
    validate.exec frame = (.error (.crcMismatch (crc16 body) (wordOfBytes high low)), frame) := by
  have hroom : frame.bytes.length = body.length + crcLen := by simp [hbytes, crcLen]
  have hcomputed : frame.computedCrc = crc16 body := by
    rw [Frame.computedCrc, hroom, Nat.add_sub_cancel, hbytes, List.take_left]
  have hreceived : frame.receivedCrc = wordOfBytes high low := by
    rw [Frame.receivedCrc, hroom, Nat.add_sub_cancel, hbytes, List.drop_left, crcOfTrailer]
  rw [exec_validate, Frame.exception?_eq_none hlength]
  simp only
  rw [if_neg (by omega), hcomputed, hreceived, if_pos hcheck]

/-! ### Reading the unread part from its end -/

/-- Reading hands out what the unread part ends in. -/
theorem exec_take_opened (field : String) {size : Nat} (expectedLen : Nat) (front : List UInt8)
    {back : List UInt8} (hback : back.length = size) (done : List UInt8) :
    (take field size).exec (.opened expectedLen (front ++ back) done : Frame capacity) =
      (.ok back, .opened expectedLen front (back ++ done)) := by
  subst hback
  have hstart : (front ++ back).length - back.length = front.length := by simp
  rw [exec_take, Frame.opened_remaining, if_neg (by simp), hstart]
  simp [Frame.opened]

theorem exec_takeByte_opened (field : String) (expectedLen : Nat) (front : List UInt8)
    (byte : UInt8) (done : List UInt8) :
    (takeByte field).exec (.opened expectedLen (front ++ [byte]) done : Frame capacity) =
      (.ok byte, .opened expectedLen front (byte :: done)) := by
  have hback : [byte].length = 1 := rfl
  rw [takeByte, exec_bind_of_ok (exec_take_opened field expectedLen front hback done)]
  rfl

theorem exec_takeWord_opened (field : String) (expectedLen : Nat) (front : List UInt8)
    (word : UInt16) (done : List UInt8) :
    (takeWord field).exec (.opened expectedLen (front ++ wordBytes word) done : Frame capacity) =
      (.ok word, .opened expectedLen front (wordBytes word ++ done)) := by
  rw [takeWord,
    exec_bind_of_ok (exec_take_opened field expectedLen front (length_wordBytes word) done)]
  simp [wordBytes, wordsOfBytes, wordOfBytes_wordBytes]

theorem exec_takeWords_opened (field : String) (expectedLen : Nat) (front : List UInt8)
    {count : Nat} {data : List UInt8} (hdata : data.length = 2 * count) (done : List UInt8) :
    (takeWords field count).exec (.opened expectedLen (front ++ data) done : Frame capacity) =
      (.ok (wordsOfBytes data), .opened expectedLen front (data ++ done)) := by
  rw [takeWords, exec_bind_of_ok (exec_take_opened field expectedLen front hdata done)]
  rfl

/-- A check that passes is followed by the next step, on the same frame. -/
theorem exec_check_bind {α : Type} (field : String) (actual expected : UInt32)
    (next : Unit → Codec capacity α) (frame : Frame capacity) :
    (check field actual expected >>= next).exec frame =
      match checkField field actual expected with
      | .ok () => (next ()).exec frame
      | .error e => (.error e, frame) := by
  rw [exec_bind, exec_check]
  cases checkField field actual expected with
  | error e => rfl
  | ok u => rfl

/-- Whether a check passes is all that decides about the outcome of the steps behind it. -/
theorem fst_exec_check_bind {α : Type} (field : String) (actual expected : UInt32)
    (next : Unit → Codec capacity α) (frame : Frame capacity) :
    ((check field actual expected >>= next).exec frame).1 =
      (checkField field actual expected).bind fun _ => ((next ()).exec frame).1 := by
  rw [exec_check_bind]
  cases checkField field actual expected with
  | error e => rfl
  | ok u => rfl

theorem exec_get_bind {α : Type} (next : Frame capacity → Codec capacity α)
    (frame : Frame capacity) : (get >>= next).exec frame = (next frame).exec frame := rfl

/-! ### What reading leaves alone -/

/-- What the frame after a step has to do with the frame before it, it has after a sequence of
steps as well, also when one of them fails. -/
theorem rel_exec_bind {α β : Type} {step : Codec capacity α} {next : α → Codec capacity β}
    {R : Frame capacity → Frame capacity → Prop} (htrans : ∀ {a b c}, R a b → R b c → R a c)
    (hstep : ∀ frame, R frame (step.exec frame).2)
    (hnext : ∀ a frame, R frame ((next a).exec frame).2) (frame : Frame capacity) :
    R frame ((step >>= next).exec frame).2 := by
  have h := hstep frame
  rw [exec_bind]
  rcases hexec : step.exec frame with ⟨e | a, frame'⟩
  · rw [hexec] at h
    exact h
  · rw [hexec] at h
    exact htrans h (hnext a frame')

/-- A step that only reads: all that it may do to a frame, also when it fails, is to shrink the
unread part. -/
def OnlyReads {α : Type} (step : Codec capacity α) : Prop :=
  ∀ frame, ∃ remaining ≤ frame.remaining, (step.exec frame).2 = { frame with remaining }

theorem OnlyReads.pure {α : Type} (a : α) : OnlyReads (pure a : Codec capacity α) :=
  fun frame => ⟨frame.remaining, Nat.le_refl _, rfl⟩

theorem OnlyReads.bind {α β : Type} {step : Codec capacity α} {next : α → Codec capacity β}
    (hstep : step.OnlyReads) (hnext : ∀ a, (next a).OnlyReads) : (step >>= next).OnlyReads := by
  refine rel_exec_bind (R := fun before after =>
    ∃ remaining ≤ before.remaining, after = { before with remaining }) ?_ hstep hnext
  rintro first second third ⟨remaining, hle, rfl⟩ ⟨later, hlater, rfl⟩
  exact ⟨later, Nat.le_trans hlater hle, rfl⟩

theorem onlyReads_get : (get : Codec capacity (Frame capacity)).OnlyReads :=
  fun frame => ⟨frame.remaining, Nat.le_refl _, rfl⟩

theorem onlyReads_take (field : String) (size : Nat) :
    (take field size : Codec capacity (List UInt8)).OnlyReads := by
  intro frame
  rw [exec_take]
  split
  · exact ⟨frame.remaining, Nat.le_refl _, rfl⟩
  · exact ⟨frame.remaining - size, Nat.sub_le _ _, rfl⟩

theorem onlyReads_check (field : String) (actual expected : UInt32) :
    (check field actual expected : Codec capacity Unit).OnlyReads := by
  intro frame
  rw [exec_check]
  exact ⟨frame.remaining, Nat.le_refl _, rfl⟩

theorem onlyReads_takeByte (field : String) :
    (takeByte field : Codec capacity UInt8).OnlyReads :=
  .bind (onlyReads_take field 1) fun _ => .pure _

theorem onlyReads_takeWord (field : String) :
    (takeWord field : Codec capacity UInt16).OnlyReads :=
  .bind (onlyReads_take field 2) fun _ => .pure _

theorem onlyReads_takeWords (field : String) (count : Nat) :
    (takeWords field count : Codec capacity (List UInt16)).OnlyReads :=
  .bind (onlyReads_take field (2 * count)) fun _ => .pure _

section Bind

variable {α : Type} {field : String}

theorem OnlyReads.takeByte_bind {next : UInt8 → Codec capacity α}
    (hnext : ∀ byte, (next byte).OnlyReads) : (takeByte field >>= next).OnlyReads :=
  .bind (onlyReads_takeByte field) hnext

theorem OnlyReads.takeWord_bind {next : UInt16 → Codec capacity α}
    (hnext : ∀ word, (next word).OnlyReads) : (takeWord field >>= next).OnlyReads :=
  .bind (onlyReads_takeWord field) hnext

theorem OnlyReads.takeWords_bind {count : Nat} {next : List UInt16 → Codec capacity α}
    (hnext : ∀ words, (next words).OnlyReads) : (takeWords field count >>= next).OnlyReads :=
  .bind (onlyReads_takeWords field count) hnext

theorem OnlyReads.check_bind {actual expected : UInt32} {next : Unit → Codec capacity α}
    (hnext : (next ()).OnlyReads) : (check field actual expected >>= next).OnlyReads :=
  .bind (onlyReads_check field actual expected) fun _ => hnext

end Bind

/-! ### The length that is due -/

/-- A step that leaves the length that is due as it is, also when it fails. -/
def KeepsExpectedLen {α : Type} (step : Codec capacity α) : Prop :=
  ∀ frame, (step.exec frame).2.expectedLen = frame.expectedLen

theorem KeepsExpectedLen.bind {α β : Type} {step : Codec capacity α}
    {next : α → Codec capacity β} (hstep : step.KeepsExpectedLen)
    (hnext : ∀ a, (next a).KeepsExpectedLen) : (step >>= next).KeepsExpectedLen :=
  rel_exec_bind (R := fun before after => after.expectedLen = before.expectedLen)
    (fun h h' => h'.trans h) hstep hnext

theorem OnlyReads.keepsExpectedLen {α : Type} {step : Codec capacity α} (h : step.OnlyReads) :
    step.KeepsExpectedLen := by
  intro frame
  obtain ⟨remaining, -, hframe⟩ := h frame
  rw [hframe]

theorem keepsExpectedLen_load (data : List UInt8) :
    (load data : Codec capacity Unit).KeepsExpectedLen := by
  intro frame
  rw [exec_load, exec_write]
  split
  · rfl
  · split <;> rfl

theorem keepsExpectedLen_validate : (validate : Codec capacity Unit).KeepsExpectedLen := by
  intro frame
  rw [exec_validate]
  split
  · rfl
  · split
    · rfl
    · split <;> rfl

/-! ### The part that is unread -/

/-- A step after which the unread part is a part of the message, if it was one before. -/
def StaysInside {α : Type} (step : Codec capacity α) : Prop :=
  ∀ frame, frame.remaining ≤ frame.bytes.length →
    (step.exec frame).2.remaining ≤ (step.exec frame).2.bytes.length

theorem StaysInside.bind {α β : Type} {step : Codec capacity α} {next : α → Codec capacity β}
    (hstep : step.StaysInside) (hnext : ∀ a, (next a).StaysInside) :
    (step >>= next).StaysInside :=
  rel_exec_bind (R := fun before after =>
    before.remaining ≤ before.bytes.length → after.remaining ≤ after.bytes.length)
    (fun h h' hinside => h' (h hinside)) hstep hnext

theorem OnlyReads.staysInside {α : Type} {step : Codec capacity α} (h : step.OnlyReads) :
    step.StaysInside := by
  intro frame hinside
  obtain ⟨remaining, hle, hframe⟩ := h frame
  rw [hframe]
  exact Nat.le_trans hle hinside

theorem staysInside_load (data : List UInt8) :
    (load data : Codec capacity Unit).StaysInside := by
  intro frame _
  have hremaining : ((load data).exec frame).2.remaining = 0 := by
    rw [exec_load, exec_write]
    split
    · rfl
    · split <;> rfl
  rw [hremaining]
  exact Nat.zero_le _

theorem staysInside_validate : (validate : Codec capacity Unit).StaysInside := by
  intro frame hinside
  rw [exec_validate]
  split
  · exact hinside
  · split
    · exact hinside
    · split
      · exact hinside
      · exact Nat.sub_le _ _

end Codec

end Modbus
