import Modbus.Proofs.Frame.Actions

/-!
# A session on a frame is safe

What may be read of a frame is limited by what was accepted, whatever was done with the frame since.
`Frame.account` follows this from outside, by the actions of a session and their outcomes: a message
that is accepted opens an account, every field that is read adds its bytes to it, and a message that
is dropped or replaced closes it. `Frame.Accounts` is what the account says about the frame. One
action keeps it (`Frame.Accounts.perform`), and so does a session (`Frame.Accounts.run`).

`Frame.performWithin?` takes an action as `Frame.perform` does, but stops at an index outside of the
message and at a difference of lengths that would be negative. It never stops where no more is
unread than there is (`Frame.performWithin?_eq`). `Frame.session_safe` puts both together.
-/

namespace Modbus

/-! ### Indices and lengths, checked -/

/-- The difference of two lengths, unless it would be negative. -/
def lengthBefore? (whole part : Nat) : Option Nat :=
  if part ≤ whole then some (whole - part) else none

/-- The bytes from one position of a message up to another, if both are positions of it. -/
def slice? (message : List UInt8) (start stop : Nat) : Option (List UInt8) :=
  if start ≤ stop ∧ stop ≤ message.length then some ((message.take stop).drop start) else none

/-- A message with another byte at an index, if the index is one of the message. -/
def set? (message : List UInt8) (index : Nat) (value : UInt8) : Option (List UInt8) :=
  if index < message.length then some (message.set index value) else none

/-- The check that belongs to a message, and the one that it carries in its last two bytes. -/
def checks? (message : List UInt8) : Option (UInt16 × UInt16) := do
  let split ← lengthBefore? message.length crcLen
  let body ← slice? message 0 split
  let low ← message[split]?
  let high ← message[split + 1]?
  return (crc16 body, wordOfBytes high low)

theorem lengthBefore?_eq {whole part : Nat} (h : part ≤ whole) :
    lengthBefore? whole part = some (whole - part) :=
  if_pos h

theorem slice?_eq {message : List UInt8} {start stop : Nat} (hstart : start ≤ stop)
    (hstop : stop ≤ message.length) :
    slice? message start stop = some ((message.take stop).drop start) :=
  if_pos ⟨hstart, hstop⟩

/-- A message with room for a check has both. -/
theorem checks?_eq {capacity : Nat} {frame : Frame capacity}
    (hroom : crcLen ≤ frame.bytes.length) :
    checks? frame.bytes = some (frame.computedCrc, frame.receivedCrc) := by
  obtain ⟨body, low, high, hbytes⟩ := exists_eq_append_pair hroom
  have hsplit : frame.bytes.length - crcLen = body.length := by
    rw [hbytes, List.length_append]
    rfl
  have hlow : frame.bytes[body.length]? = some low := by simp [hbytes]
  have hhigh : frame.bytes[body.length + 1]? = some high := by simp [hbytes]
  have hcarried : crcOfTrailer (frame.bytes.drop body.length) = wordOfBytes high low := by
    rw [hbytes, List.drop_left, crcOfTrailer]
  rw [checks?, lengthBefore?_eq hroom, hsplit, Frame.computedCrc, Frame.receivedCrc, hsplit,
    hcarried]
  simp only [Option.bind_eq_bind, Option.bind_some]
  rw [slice?_eq (Nat.zero_le _) (by omega), hlow, hhigh]
  rfl

namespace Frame

variable {capacity : Nat}

/-- The refusal that a frame holds. -/
def exceptionWithin? (frame : Frame capacity) : Option (Option (UInt8 × ExceptionCode)) :=
  if frame.bytes.length = exceptionFrameLen ∧ frame.expectedLen ≠ exceptionFrameLen then do
    let function ← frame.bytes[1]?
    if function &&& exceptionFlag = 0 then
      return none
    let (computed, received) ← checks? frame.bytes
    if computed ≠ received then
      return none
    let code ← frame.bytes[2]?
    return some (function &&& ~~~exceptionFlag, ExceptionCode.ofByte code)
  else some none

/-- Check a received message and open it. -/
def validateWithin? (frame : Frame capacity) : Option (Except WireError Unit × Frame capacity) := do
  if let some (function, code) := ← frame.exceptionWithin? then
    return (.error (.exception function code), frame)
  if frame.bytes.length ≠ frame.expectedLen ∨ frame.bytes.length < crcLen then
    return (.error (.frameLength frame.expectedLen frame.bytes.length), frame)
  let (computed, received) ← checks? frame.bytes
  if computed ≠ received then
    return (.error (.crcMismatch computed received), frame)
  let remaining ← lengthBefore? frame.bytes.length crcLen
  return (.ok (), { frame with remaining })

/-- Read a field of some bytes, and make of them what `form` says. -/
def takeWithin? (frame : Frame capacity) (field : String) (size : Nat)
    (form : List UInt8 → Option Outcome) : Option (Except WireError Outcome × Frame capacity) := do
  if frame.remaining < size then
    return (.error (.underflow field), frame)
  let remaining ← lengthBefore? frame.remaining size
  let bytes ← slice? frame.bytes remaining frame.remaining
  let outcome ← form bytes
  return (.ok outcome, { frame with remaining })

/-- The outcome of an action and the frame after it, unless the action uses an index outside of the
message or a negative length. -/
def performWithin? (frame : Frame capacity) :
    Action → Option (Except WireError Outcome × Frame capacity)
  | .patch index value =>
    if index < frame.bytes.length then do
      let bytes ← set? frame.bytes index value
      return (.ok .done, { frame with bytes })
    else some (.error .outOfBuffer, frame)
  | .validate => do
    let (outcome, after) ← frame.validateWithin?
    return (outcome.map fun _ => .done, after)
  | .takeByte field => frame.takeWithin? field 1 fun bytes => do
    return .byte (← bytes[0]?)
  | .takeWord field => frame.takeWithin? field 2 fun bytes => do
    return .word (wordOfBytes (← bytes[0]?) (← bytes[1]?))
  | .takeWords field count => frame.takeWithin? field (2 * count) fun bytes =>
    some (.words (wordsOfBytes bytes))
  -- no other action uses an index or a difference of lengths
  | action => some (frame.perform action)

/-- Five bytes are three and a check. -/
theorem exists_eq_five {bytes : List UInt8} (h : bytes.length = exceptionFrameLen) :
    ∃ sender function code low high, bytes = [sender, function, code, low, high] := by
  have hroom : crcLen ≤ bytes.length := by
    rw [h]
    decide
  obtain ⟨body, low, high, rfl⟩ := exists_eq_append_pair hroom
  rw [List.length_append] at h
  obtain ⟨sender, function, code, rfl⟩ := List.length_eq_three.mp (Nat.add_right_cancel h)
  exact ⟨sender, function, code, low, high, rfl⟩

theorem exceptionWithin?_eq (frame : Frame capacity) :
    frame.exceptionWithin? = some frame.exception? := by
  rw [exceptionWithin?, exception?]
  by_cases hshape : frame.bytes.length = exceptionFrameLen ∧ frame.expectedLen ≠ exceptionFrameLen
  · obtain ⟨sender, function, code, low, high, hbytes⟩ := exists_eq_five hshape.1
    have hroom : crcLen ≤ frame.bytes.length := by
      rw [hshape.1]
      decide
    have hchecks := checks?_eq hroom
    rw [if_pos hshape]
    rw [hbytes] at hchecks ⊢
    simp only [hchecks, List.getElem?_cons_succ, List.getElem?_cons_zero, Option.bind_eq_bind,
      Option.bind_some]
    by_cases hflag : function &&& exceptionFlag = 0
    · rw [if_pos hflag, if_neg fun h => h.2.1 hflag]
      rfl
    · by_cases hcrc : frame.computedCrc = frame.receivedCrc
      · rw [if_neg hflag, if_neg (not_not.mpr hcrc), if_pos ⟨hshape.2, hflag, hcrc⟩]
        rfl
      · rw [if_neg hflag, if_pos hcrc, if_neg fun h => hcrc h.2.2]
        rfl
  · rw [if_neg hshape]
    split
    · next hbytes =>
      have hlength : frame.bytes.length = exceptionFrameLen := by
        rw [hbytes]
        rfl
      rw [if_neg fun h => hshape ⟨hlength, h.1⟩]
    · rfl

theorem validateWithin?_eq (frame : Frame capacity) :
    frame.validateWithin? = some (Codec.validate.exec frame) := by
  rw [validateWithin?, exceptionWithin?_eq, Codec.exec_validate]
  rcases frame.exception? with _ | ⟨function, code⟩
  · simp only [Option.bind_eq_bind, Option.bind_some]
    by_cases hlength : frame.bytes.length ≠ frame.expectedLen ∨ frame.bytes.length < crcLen
    · rw [if_pos hlength, if_pos hlength]
      rfl
    · have hroom : crcLen ≤ frame.bytes.length := by omega
      rw [if_neg hlength, if_neg hlength, checks?_eq hroom]
      simp only [Option.bind_some]
      by_cases hcrc : frame.computedCrc ≠ frame.receivedCrc
      · rw [if_pos hcrc, if_pos hcrc]
        rfl
      · rw [if_neg hcrc, if_neg hcrc, lengthBefore?_eq hroom]
        rfl
  · rfl

theorem takeWithin?_eq {frame : Frame capacity}
    (hinside : frame.remaining ≤ frame.bytes.length) {action : Action} {field : String} {size : Nat}
    (hreads : action.reads = some (field, size)) {form : List UInt8 → Option Outcome}
    (hform : ∀ bytes, bytes.length = size → form bytes = some (action.handsOut bytes)) :
    frame.takeWithin? field size form = some (frame.perform action) := by
  rw [perform_of_reads hreads, takeWithin?]
  by_cases hshort : frame.remaining < size
  · rw [if_pos hshort, if_pos hshort]
    rfl
  · have hsize : size ≤ frame.remaining := Nat.not_lt.mp hshort
    have hslice : (frame.bytes.take frame.remaining).drop (frame.remaining - size) =
        (frame.bytes.drop (frame.remaining - size)).take size := by
      rw [List.drop_take, Nat.sub_sub_self hsize]
    have hlength : ((frame.bytes.drop (frame.remaining - size)).take size).length = size := by
      rw [List.length_take, List.length_drop]
      omega
    rw [if_neg hshort, if_neg hshort, lengthBefore?_eq hsize]
    simp only [Option.bind_eq_bind, Option.bind_some]
    rw [slice?_eq (Nat.sub_le _ _) hinside, Option.bind_some, hslice, hform _ hlength]
    rfl

theorem performWithin?_eq {frame : Frame capacity}
    (hinside : frame.remaining ≤ frame.bytes.length) (action : Action) :
    frame.performWithin? action = some (frame.perform action) := by
  cases action with
  | patch index value =>
    rw [performWithin?, perform_patch]
    by_cases hindex : index < frame.bytes.length
    · rw [if_pos hindex, if_pos hindex, set?, if_pos hindex]
      rfl
    · rw [if_neg hindex, if_neg hindex]
  | validate =>
    rw [performWithin?, validateWithin?_eq]
    exact congrArg some (Codec.exec_bind_pure _ _ frame).symm
  | takeByte field =>
    refine takeWithin?_eq hinside rfl fun bytes hlength => ?_
    obtain ⟨byte, rfl⟩ := List.length_eq_one_iff.mp hlength
    rfl
  | takeWord field =>
    refine takeWithin?_eq hinside rfl fun bytes hlength => ?_
    obtain ⟨high, low, rfl⟩ := List.length_eq_two.mp hlength
    rfl
  | takeWords field count => exact takeWithin?_eq hinside rfl fun bytes _ => rfl
  | byte | word | words | write | close | load | clear => rfl

/-! ### The account of a session -/

/-- The account after an action: how many bytes of the accepted message have been read, or nothing
if there is no accepted message. -/
def booked (read : Option Nat) : Action → Except WireError Outcome → Option Nat
  | .clear, _ => none
  | .load _, _ => none
  | .validate, .ok _ => some 0
  | .takeByte _, .ok _ => read.map (· + 1)
  | .takeWord _, .ok _ => read.map (· + 2)
  | .takeWords _ count, .ok _ => read.map (· + 2 * count)
  | _, _ => read

/-- The account after a session, which begins without one. -/
def account (frame : Frame capacity) (actions : List Action) : Option Nat :=
  (actions.zip (frame.outcomes actions)).foldl (fun read step => booked read step.1 step.2) none

/-- What an account says about a frame. -/
structure Accounts (frame : Frame capacity) (expectedLen : Nat) (read : Option Nat) : Prop where
  fits : frame.bytes.length ≤ capacity
  expectedLen_eq : frame.expectedLen = expectedLen
  closed : read = none → frame.remaining = 0
  opened : ∀ count, read = some count → count + frame.remaining + crcLen = expectedLen
  inside : 0 < frame.remaining → frame.remaining + crcLen ≤ frame.bytes.length

section Accounts

variable {frame : Frame capacity} {expectedLen : Nat} {read : Option Nat}

/-- A frame that is dropped or replaced has nothing unread. -/
theorem accounts_none {data : List UInt8} (hfits : data.length ≤ capacity) :
    ({ expectedLen, bytes := data } : Frame capacity).Accounts expectedLen none where
  fits := hfits
  expectedLen_eq := rfl
  closed _ := rfl
  opened _ h := by cases h
  inside h := absurd h (Nat.lt_irrefl 0)

/-- Writing does not touch what is unread. -/
theorem Accounts.writing (h : frame.Accounts expectedLen read) {bytes : List UInt8}
    (hgrows : frame.bytes.length ≤ bytes.length) (hfits : bytes.length ≤ capacity) :
    ({ frame with bytes } : Frame capacity).Accounts expectedLen read where
  fits := hfits
  expectedLen_eq := h.expectedLen_eq
  closed := h.closed
  opened := h.opened
  inside hunread := Nat.le_trans (h.inside hunread) hgrows

/-- A message that is accepted is unread but for its check. -/
theorem Accounts.accepting (h : frame.Accounts expectedLen read) {body : List UInt8}
    (hbody : frame.bytes = sealed body) (hlength : frame.expectedLen = body.length + crcLen) :
    ({ frame with remaining := body.length } : Frame capacity).Accounts expectedLen (some 0) where
  fits := h.fits
  expectedLen_eq := h.expectedLen_eq
  closed := by simp
  opened count hcount := by
    cases hcount
    rw [Nat.zero_add, ← hlength, h.expectedLen_eq]
  inside _ := by
    have hbytes : frame.bytes.length = body.length + crcLen := by
      rw [hbody, length_sealed, crcLen]
    exact Nat.le_of_eq hbytes.symm

/-- What is read of a message is no longer unread. -/
theorem Accounts.reading (h : frame.Accounts expectedLen read) {size : Nat}
    (hsize : size ≤ frame.remaining) :
    ({ frame with remaining := frame.remaining - size } : Frame capacity).Accounts expectedLen
      (read.map (· + size)) where
  fits := h.fits
  expectedLen_eq := h.expectedLen_eq
  closed hnone := by rw [h.closed (Option.map_eq_none_iff.mp hnone), Nat.zero_sub]
  opened count hcount := by
    obtain ⟨before, hbefore, rfl⟩ := Option.map_eq_some_iff.mp hcount
    have htotal := h.opened before hbefore
    show before + size + (frame.remaining - size) + crcLen = expectedLen
    omega
  inside hunread := by
    have hinside := h.inside (Nat.lt_of_lt_of_le hunread (Nat.sub_le _ _))
    exact Nat.le_trans (Nat.add_le_add_right (Nat.sub_le _ _) _) hinside

/-- **One action keeps the account.** -/
theorem Accounts.perform (h : frame.Accounts expectedLen read) (action : Action) :
    (frame.perform action).2.Accounts expectedLen
      (booked read action (frame.perform action).1) := by
  cases action with
  | byte | word | write | close =>
    rw [perform_of_appended rfl]
    split
    · next hroom =>
      rw [← List.length_append] at hroom
      exact h.writing (by simp) hroom
    · exact h
  | words values =>
    rw [perform_words]
    have hfits := h.fits
    split
    · refine h.writing (by simp) ?_
      rw [List.length_append, length_wordsBytes]
      omega
    · refine h.writing (by simp) ?_
      rw [List.length_append, length_wordsBytes, List.length_take]
      omega
  | patch index value =>
    rw [perform_patch]
    split
    · exact h.writing (by simp) (by simpa using h.fits)
    · exact h
  | clear =>
    rw [perform_clear, h.expectedLen_eq]
    exact accounts_none (Nat.zero_le capacity)
  | load data =>
    rw [perform_load, h.expectedLen_eq]
    split
    · exact accounts_none (Nat.zero_le capacity)
    · split
      · next hfits => exact accounts_none hfits
      · exact accounts_none (Nat.zero_le capacity)
  | validate =>
    rcases perform_validate_cases frame with ⟨body, hbody, hlength, hok⟩ | ⟨e, -, herror⟩
    · rw [hok]
      exact h.accepting hbody hlength
    · rw [herror]
      exact h
  | takeByte | takeWord | takeWords =>
    rw [perform_of_reads rfl]
    split
    · exact h
    · next hunread => exact h.reading (Nat.not_lt.mp hunread)

/-- **A session keeps the account.** -/
theorem Accounts.run (h : frame.Accounts expectedLen read) (actions : List Action) :
    (frame.run actions).Accounts expectedLen
      ((actions.zip (frame.outcomes actions)).foldl (fun read step => booked read step.1 step.2)
        read) := by
  induction actions generalizing frame read with
  | nil => exact h
  | cons action actions ih => exact ih (h.perform action)

/-- Nothing is unread that the frame does not have. -/
theorem Accounts.remaining_le (h : frame.Accounts expectedLen read) :
    frame.remaining ≤ frame.bytes.length := by
  by_cases hunread : 0 < frame.remaining
  · exact Nat.le_trans (Nat.le_add_right _ _) (h.inside hunread)
  · omega

end Accounts

theorem accounts_account (expectedLen : Nat) (actions : List Action) :
    (({ expectedLen } : Frame capacity).run actions).Accounts expectedLen
      (({ expectedLen } : Frame capacity).account actions) :=
  (accounts_none (Nat.zero_le capacity)).run actions

/-- **A session on a frame is safe**, whatever fails in it. The message stays within the capacity
and the length that is due stays as it is. Bytes are unread only while there is an account, of the
message without its check, and as many as the account leaves. No action uses an index outside of the
message or a negative length, and without an account no field of any bytes is read. -/
theorem session_safe (expectedLen : Nat) (actions : List Action) :
    let new : Frame capacity := { expectedLen }
    let frame := new.run actions
    frame.bytes.length ≤ capacity ∧ frame.expectedLen = expectedLen ∧
      (0 < frame.remaining →
        (∃ count, new.account actions = some count) ∧
          frame.remaining + crcLen ≤ expectedLen ∧
            frame.remaining + crcLen ≤ frame.bytes.length) ∧
      (∀ count, new.account actions = some count →
        count + frame.remaining + crcLen = expectedLen) ∧
      (∀ action, frame.performWithin? action = some (frame.perform action)) ∧
      (new.account actions = none →
        ∀ {action : Action} {field : String} {size : Nat}, action.reads = some (field, size) →
          0 < size → frame.perform action = (.error (.underflow field), frame)) := by
  intro new frame
  have h : frame.Accounts expectedLen (new.account actions) := accounts_account expectedLen actions
  refine ⟨h.fits, h.expectedLen_eq, fun hunread => ?_, h.opened,
    performWithin?_eq h.remaining_le, fun hnone => perform_of_exhausted (h.closed hnone)⟩
  cases haccount : new.account actions with
  | none => exact absurd (h.closed haccount) (Nat.ne_of_gt hunread)
  | some count =>
    have htotal := h.opened count haccount
    exact ⟨⟨count, rfl⟩, by omega, h.inside hunread⟩

end Frame

end Modbus
