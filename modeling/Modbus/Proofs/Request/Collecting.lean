import Modbus.Proofs.Request.Layout

/-!
# A bulk write collects its payload

A bulk write is built step by step: bytes are appended to its payload as long as there is room, and
whenever an odd number of them is encoded, a zero is added that stays. `Request.collected` says what
has come together after any steps, and `Request.Collects` that a request holds just that. One step
keeps it (`Request.Collects.perform`), and so do any steps (`Request.collects_run`).

What a bulk write is encoded as follows from it (`Request.Collects.encode_eq`): nothing but an empty
payload makes an encoding fail, and the counts in the frame are those of the payload behind them.
Requests that differ only in what was written last stay so and answer alike
(`Request.Alike.perform`), so encodings that meet whole words leave no trace in what comes after
them. `Request.bulk_write_collects` says all this of any steps.
-/

namespace Modbus

namespace Request

/-! ### The payload that steps collect -/

/-- What a step makes of the payload of a bulk write. -/
def collect (payload : List UInt8) : Step → List UInt8
  | .append data =>
    if payload.length + data.length ≤ maxPayloadLen then payload ++ data else payload
  | .encode => if payload.length % 2 = 1 then payload ++ [0] else payload
  | _ => payload

/-- The payload that steps collect from the beginning. -/
def collected (steps : List Step) : List UInt8 :=
  steps.foldl collect []

theorem collected_concat (steps : List Step) (step : Step) :
    collected (steps ++ [step]) = collect (collected steps) step :=
  List.foldl_append

theorem collect_encode (payload : List UInt8) :
    collect payload .encode = Command.padded payload := by
  rw [collect, Command.padded]
  rcases Nat.mod_two_eq_zero_or_one payload.length with heven | hodd
  · rw [if_pos heven, if_neg (by omega)]
  · rw [if_pos hodd, if_neg (by omega)]

/-- There is always room for the zero that fills up a payload. -/
theorem length_collect_le {payload : List UInt8} (hshort : payload.length ≤ maxPayloadLen)
    (step : Step) : (collect payload step).length ≤ maxPayloadLen := by
  cases step with
  | append data =>
    rw [collect]
    split
    · rwa [List.length_append]
    · exact hshort
  | encode =>
    rw [collect_encode, Command.length_padded]
    rw [maxPayloadLen] at hshort ⊢
    omega
  | setDevice | setAddress | setCount | setValue => exact hshort

/-! ### Requests that collect a payload -/

/-- A request that has collected a payload for a bulk write. -/
structure Collects (request : Request) (payload : List UInt8) : Prop where
  exists_command : ∃ address, request.command = .writeMultiple address payload
  short : payload.length ≤ maxPayloadLen
  /-- The frame is only written. -/
  frame_eq : request.frame = { bytes := request.frame.bytes }
  /-- Nothing is written before there is something to write. -/
  unsent : payload = [] → request.frame.bytes = []

section Collects

variable {request : Request} {payload : List UInt8} {address : UInt16}

theorem perform_append (hcommand : request.command = .writeMultiple address payload)
    (data : List UInt8) :
    request.perform (.append data) =
      if payload.length + data.length ≤ maxPayloadLen then
        (.ok (), { request with command := .writeMultiple address (payload ++ data) })
      else (.error .outOfBuffer, request) := by
  have happend : request.command.append data =
      if payload.length + data.length ≤ maxPayloadLen then
        .ok (.writeMultiple address (payload ++ data))
      else .error .outOfBuffer := by
    rw [hcommand]
    rfl
  rw [perform, happend]
  by_cases hroom : payload.length + data.length ≤ maxPayloadLen
  · rw [if_pos hroom, if_pos hroom]
  · rw [if_neg hroom, if_neg hroom]

/-- A bulk write of nothing is not encoded. -/
theorem encode_of_nil (hcommand : request.command = .writeMultiple address []) :
    request.encode = (.error (.underflow "No registers to write"), request) := by
  rw [encode, hcommand]
  rfl

/-- **Any other bulk write is encoded**, filled up to whole words. -/
theorem Collects.encode_eq (h : request.Collects payload)
    (hcommand : request.command = .writeMultiple address payload) (hpayload : payload ≠ []) :
    request.encode =
      (.ok (), {
        device := request.device
        command := .writeMultiple address (Command.padded payload)
        frame := {
          bytes := sealed (request.device ::
            (Command.writeMultiple address (Command.padded payload)).body) } }) := by
  have hprepare : request.command.prepare =
      .ok (.writeMultiple address (Command.padded payload)) := by
    rw [hcommand]
    exact Command.prepare_eq_ok_iff.mpr ⟨hpayload, rfl⟩
  have hfits : (Command.writeMultiple address (Command.padded payload)).body.length + 3 ≤
      maxFrameLen := by
    have hshort := h.short
    rw [maxPayloadLen] at hshort
    simp only [Command.body, List.length_cons, List.length_append, length_wordBytes,
      Command.length_padded, maxFrameLen]
    omega
  have hdue : request.frame.expectedLen = 0 := congrArg Frame.expectedLen h.frame_eq
  refine encode_eq_ok_iff.mpr ⟨_, hprepare, trivial, hfits, ?_⟩
  rw [hdue]

/-- **One step** collects what it should. -/
theorem Collects.perform (h : request.Collects payload) (step : Step) :
    (request.perform step).2.Collects (collect payload step) := by
  obtain ⟨address, hcommand⟩ := h.exists_command
  have hshort := length_collect_le h.short step
  cases step with
  | append data =>
    rw [perform_append hcommand]
    rw [collect] at hshort ⊢
    by_cases hroom : payload.length + data.length ≤ maxPayloadLen
    · rw [if_pos hroom] at hshort ⊢
      rw [if_pos hroom]
      refine ⟨⟨address, rfl⟩, hshort, h.frame_eq, fun hnil => ?_⟩
      exact h.unsent (List.append_eq_nil_iff.mp hnil).1
    · rw [if_neg hroom, if_neg hroom]
      exact h
  | encode =>
    rw [collect_encode] at hshort ⊢
    by_cases hpayload : payload = []
    · subst hpayload
      rw [Request.perform, encode_of_nil hcommand]
      exact h
    · rw [Request.perform, h.encode_eq hcommand hpayload]
      refine ⟨⟨address, rfl⟩, hshort, rfl, fun hnil => ?_⟩
      exact absurd (Command.padded_eq_nil_iff.mp hnil) hpayload
  | setAddress later =>
    refine ⟨⟨later, ?_⟩, hshort, h.frame_eq, h.unsent⟩
    rw [Request.perform, hcommand]
    rfl
  | setDevice | setCount | setValue =>
    refine ⟨⟨address, ?_⟩, hshort, h.frame_eq, h.unsent⟩
    rw [Request.perform, hcommand]
    rfl

/-- **Any steps** collect what they should. -/
theorem Collects.run (h : request.Collects payload) (steps : List Step) :
    (request.run steps).Collects (steps.foldl collect payload) := by
  induction steps generalizing request payload with
  | nil => exact h
  | cons step steps ih => exact ih (h.perform step)

end Collects

theorem collects_new (device : UInt8) (address : UInt16) :
    ({ device, command := .writeMultiple address [] } : Request).Collects [] where
  exists_command := ⟨address, rfl⟩
  short := Nat.zero_le _
  frame_eq := rfl
  unsent _ := rfl

theorem collects_run (device : UInt8) (address : UInt16) (steps : List Step) :
    (({ device, command := .writeMultiple address [] } : Request).run steps).Collects
      (collected steps) :=
  (collects_new device address).run steps

/-! ### Encodings that leave no trace -/

/-- The second list of steps is the first one with encodings added that meet whole words. -/
inductive AddsIdle : List UInt8 → List Step → List Step → Prop
  | nil (payload : List UInt8) : AddsIdle payload [] []
  | step {payload : List UInt8} {steps others : List Step} (step : Step)
    (h : AddsIdle (collect payload step) steps others) :
    AddsIdle payload (step :: steps) (step :: others)
  | idle {payload : List UInt8} {steps others : List Step} (heven : payload.length % 2 = 0)
    (h : AddsIdle payload steps others) : AddsIdle payload steps (.encode :: others)

/-- Requests that differ in what was written last at most. -/
structure Alike (first second : Request) (payload : List UInt8) : Prop where
  first_collects : first.Collects payload
  second_collects : second.Collects payload
  device_eq : first.device = second.device
  command_eq : first.command = second.command

section Alike

variable {first second : Request} {payload : List UInt8}

/-- Requests that are alike are encoded alike. -/
theorem Alike.encode_eq (h : first.Alike second payload) : first.encode = second.encode := by
  obtain ⟨address, hsecond⟩ := h.second_collects.exists_command
  have hfirst : first.command = .writeMultiple address payload := h.command_eq.trans hsecond
  by_cases hpayload : payload = []
  · have hframe : first.frame = second.frame := by
      rw [h.first_collects.frame_eq, h.second_collects.frame_eq, h.first_collects.unsent hpayload,
        h.second_collects.unsent hpayload]
    have hsame : first = second := by
      obtain ⟨device, command, frame⟩ := first
      obtain ⟨-, -, hdevice, hcommand⟩ := h
      cases hdevice
      cases hcommand
      cases hframe
      rfl
    rw [hsame]
  · rw [h.first_collects.encode_eq hfirst hpayload, h.second_collects.encode_eq hsecond hpayload,
      h.device_eq]

/-- A step has the same outcome for requests that are alike, and leaves them alike. -/
theorem Alike.perform (h : first.Alike second payload) (step : Step) :
    (first.perform step).1 = (second.perform step).1 ∧
      (first.perform step).2.Alike (second.perform step).2 (collect payload step) := by
  obtain ⟨hfirst, hsecond, hdevice, hcommand⟩ := h
  -- what is left is that the outcomes, the devices and the commands are the same
  suffices hsame : (first.perform step).1 = (second.perform step).1 ∧
      (first.perform step).2.device = (second.perform step).2.device ∧
        (first.perform step).2.command = (second.perform step).2.command from
    ⟨hsame.1, hfirst.perform step, hsecond.perform step, hsame.2.1, hsame.2.2⟩
  cases step with
  | setDevice device => exact ⟨rfl, rfl, hcommand⟩
  | setAddress address => exact ⟨rfl, hdevice, congrArg (Command.setAddress address) hcommand⟩
  | setCount count => exact ⟨rfl, hdevice, congrArg (Command.setCount count) hcommand⟩
  | setValue value => exact ⟨rfl, hdevice, congrArg (Command.setValue value) hcommand⟩
  | append data =>
    obtain ⟨address, hpayload⟩ := hsecond.exists_command
    rw [perform_append hpayload, perform_append (hcommand.trans hpayload)]
    by_cases hroom : payload.length + data.length ≤ maxPayloadLen
    · rw [if_pos hroom, if_pos hroom]
      exact ⟨rfl, hdevice, rfl⟩
    · rw [if_neg hroom, if_neg hroom]
      exact ⟨rfl, hdevice, hcommand⟩
  | encode =>
    have halike : first.Alike second payload := ⟨hfirst, hsecond, hdevice, hcommand⟩
    have hencode : first.encode = second.encode := halike.encode_eq
    rw [Request.perform, Request.perform, hencode]
    exact ⟨rfl, rfl, rfl⟩

/-- An encoding of whole words changes nothing but what was written last. -/
theorem Alike.idle (h : first.Alike second payload) (heven : payload.length % 2 = 0) :
    first.Alike (second.perform .encode).2 payload := by
  have hcollect : collect payload .encode = payload := by
    rw [collect_encode, Command.padded_of_even heven]
  have hafter := h.second_collects.perform .encode
  rw [hcollect] at hafter
  obtain ⟨address, hcommand⟩ := h.second_collects.exists_command
  have hsame : (second.perform .encode).2.device = second.device ∧
      (second.perform .encode).2.command = second.command := by
    by_cases hpayload : payload = []
    · subst hpayload
      rw [Request.perform, encode_of_nil hcommand]
      exact ⟨rfl, rfl⟩
    · rw [Request.perform, h.second_collects.encode_eq hcommand hpayload, hcommand,
        Command.padded_of_even heven]
      exact ⟨rfl, rfl⟩
  exact ⟨h.first_collects, hafter, h.device_eq.trans hsame.1.symm,
    h.command_eq.trans hsame.2.symm⟩

theorem Alike.run (h : first.Alike second payload) {steps others : List Step}
    (hidle : AddsIdle payload steps others) :
    (first.run steps).Alike (second.run others) (steps.foldl collect payload) := by
  induction hidle generalizing first second with
  | nil => exact h
  | step step _ ih => exact ih (h.perform step).2
  | idle heven _ ih => exact ih (h.idle heven)

end Alike

/-! ### A whole run -/

/-- What the frame of an encoded bulk write says about the payload that it carries. -/
theorem Collects.sent_eq {request sent : Request} {payload : List UInt8} {address : UInt16}
    (h : request.Collects payload) (hcommand : request.command = .writeMultiple address payload)
    (hsent : request.encode = (.ok (), sent)) :
    ∃ byteCount : UInt8,
      sent.frame.bytes =
        sealed (request.device :: writeMultipleCode ::
          (wordBytes address ++ (wordBytes request.command.registerCount ++
            byteCount :: collect payload .encode))) ∧
      byteCount.toNat = 2 * request.command.registerCount.toNat ∧
      (collect payload .encode).length = byteCount.toNat ∧
      sent.frame.bytes.length = 9 + 2 * request.command.registerCount.toNat ∧
      sent.frame.bytes.length ≤ 255 ∧
      sent.command.registerCount = request.command.registerCount := by
  have hpayload : payload ≠ [] := by
    rintro rfl
    rw [encode_of_nil hcommand] at hsent
    cases hsent
  rw [h.encode_eq hcommand hpayload] at hsent
  cases hsent
  have hshort : payload.length ≤ 246 := h.short
  have hcount : request.command.registerCount.toNat = (payload.length + 1) / 2 := by
    rw [hcommand]
    exact Command.toNat_registerCount address (by omega)
  have hlength : (Command.padded payload).length = 2 * request.command.registerCount.toNat := by
    rw [Command.length_padded, hcount]
  have hsame : (Command.writeMultiple address (Command.padded payload)).registerCount =
      request.command.registerCount := by
    rw [← UInt16.toNat_inj, Command.toNat_registerCount address (by omega), hlength]
    omega
  have hbyteCount : (UInt8.ofNat (Command.padded payload).length).toNat =
      (Command.padded payload).length :=
    UInt8.toNat_ofNat_of_lt' (show (Command.padded payload).length < 256 by omega)
  refine ⟨UInt8.ofNat (Command.padded payload).length, ?_, ?_, ?_, ?_, ?_, hsame⟩
  · rw [collect_encode, Command.body, hsame]
  · rw [hbyteCount, hlength]
  · rw [hbyteCount, collect_encode]
  · simp only [Command.body, length_sealed, List.length_cons, List.length_append, length_wordBytes,
      hlength]
    omega
  · simp only [Command.body, length_sealed, List.length_cons, List.length_append, length_wordBytes,
      hlength]
    omega

/-- **A bulk write collects its payload**, in any steps. Bytes are appended as long as there is room
for all of them, and only a payload of no bytes is not encoded. The frame carries what was
collected, with the zero that fills it up, and counts it in bytes and in registers; the number of
registers is the same before and after. Encodings that met whole words may be left out: all later
steps have the same outcome, and the next frame is the same. -/
theorem bulk_write_collects (device : UInt8) (start : UInt16) (steps : List Step) :
    let new : Request := { device, command := .writeMultiple start [] }
    let request := new.run steps
    let payload := collected steps
    payload.length ≤ maxPayloadLen ∧
    ∃ address, request.command = .writeMultiple address payload ∧
      (∀ data, request.perform (.append data) =
        if payload.length + data.length ≤ maxPayloadLen then
          (.ok (), { request with command := .writeMultiple address (payload ++ data) })
        else (.error .outOfBuffer, request)) ∧
      (∀ e, request.encode.1 = .error e ↔
        payload = [] ∧ e = .underflow "No registers to write") ∧
      (payload = [] → request.frame.bytes = [] ∧ request.encode.2 = request) ∧
      (∀ sent, request.encode = (.ok (), sent) → ∃ byteCount : UInt8,
        sent.frame.bytes =
          sealed (request.device :: writeMultipleCode ::
            (wordBytes address ++ (wordBytes request.command.registerCount ++
              byteCount :: collected (steps ++ [.encode])))) ∧
        byteCount.toNat = 2 * request.command.registerCount.toNat ∧
        (collected (steps ++ [.encode])).length = byteCount.toNat ∧
        sent.frame.bytes.length = 9 + 2 * request.command.registerCount.toNat ∧
        sent.frame.bytes.length ≤ 255 ∧
        sent.command.registerCount = request.command.registerCount) ∧
      ∀ others, AddsIdle [] steps others →
        (∀ step, ((new.run others).perform step).1 = (request.perform step).1) ∧
          (new.run others).command = request.command ∧
            (new.run others).encode = request.encode := by
  intro new request payload
  have h : request.Collects payload := collects_run device start steps
  obtain ⟨address, hcommand⟩ := h.exists_command
  refine ⟨h.short, address, hcommand, perform_append hcommand, fun e => ?_, fun hnil => ?_,
    fun sent hsent => ?_, fun others hidle => ?_⟩
  · by_cases hpayload : payload = []
    · rw [encode_of_nil (hpayload ▸ hcommand)]
      simp [hpayload, eq_comm]
    · rw [h.encode_eq hcommand hpayload]
      simp [hpayload]
  · rw [encode_of_nil (hnil ▸ hcommand)]
    exact ⟨h.unsent hnil, rfl⟩
  · rw [collected_concat]
    exact h.sent_eq hcommand hsent
  · have halike : request.Alike (new.run others) payload :=
      Alike.run ⟨collects_new device start, collects_new device start, rfl, rfl⟩ hidle
    exact ⟨fun step => (halike.perform step).1.symm, halike.command_eq.symm,
      halike.encode_eq.symm⟩

end Request

end Modbus
