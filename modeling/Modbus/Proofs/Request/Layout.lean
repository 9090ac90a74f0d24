import Modbus.Proofs.Frame.Writing
import Modbus.Request

/-!
# The layout of a request

`Command.LaidOut` says how a command travels between the device and the check, one rule for every
kind of command: a bulk write is filled up to whole words, and the counts in front of its payload
and in front of the parts of a request for file records are those of what follows.

`Command.body` puts a prepared command into this form. `Request.encode` succeeds exactly on commands
that can be prepared, ask for sizes that fit a word and fit a message; the frame then holds the body
behind the device, sealed, whatever it held before (`Request.encode_eq_ok_iff`).
-/

namespace Modbus

namespace FileRecord

/-- The parts of a request that ask for records: for each the reference, the place and the size. -/
def requestParts (records : List FileRecord) : List UInt8 :=
  records.flatMap fun record =>
    fileReference ::
      (wordBytes record.file ++ (wordBytes record.record ++ wordBytes (UInt16.ofNat record.size)))

theorem requestParts_cons (record : FileRecord) (records : List FileRecord) :
    requestParts (record :: records) =
      fileReference ::
        (wordBytes record.file ++
          (wordBytes record.record ++
            (wordBytes (UInt16.ofNat record.size) ++ requestParts records))) := rfl

@[simp] theorem length_requestParts (records : List FileRecord) :
    (requestParts records).length = 7 * records.length := by
  induction records with
  | nil => rfl
  | cons record records ih =>
    rw [requestParts_cons]
    simp only [List.length_cons, List.length_append, length_wordBytes, ih]
    omega

end FileRecord

namespace Command

/-! ### How a command travels -/

/-- How a command travels, function first. -/
inductive LaidOut : Command → List UInt8 → Prop
  | readHolding (start count : UInt16) :
    LaidOut (.readHolding start count)
      (readHoldingCode :: (wordBytes start ++ wordBytes count))
  | writeSingle (register value : UInt16) :
    LaidOut (.writeSingle register value)
      (writeSingleCode :: (wordBytes register ++ wordBytes value))
  /-- The padding is a byte or none, and the words that are counted are those of the payload with
  it. -/
  | writeMultiple {start count : UInt16} {byteCount : UInt8} {payload padding : List UInt8}
    (hpayload : payload ≠ []) (hpadding : padding = [] ∨ padding = [0])
    (hcount : (payload ++ padding).length = 2 * count.toNat)
    (hbyteCount : byteCount.toNat = 2 * count.toNat) :
    LaidOut (.writeMultiple start payload)
      (writeMultipleCode ::
        (wordBytes start ++ (wordBytes count ++ byteCount :: (payload ++ padding))))
  /-- The bytes that are counted are those of the parts, seven for each. -/
  | readRecords {byteCount : UInt8} {records : List FileRecord} (hrecords : records ≠ [])
    (hbyteCount : byteCount.toNat = 7 * records.length)
    (hsizes : ∀ record ∈ records, record.size < 65536) :
    LaidOut (.readRecords records)
      (readRecordsCode :: byteCount :: FileRecord.requestParts records)

/-- What is sent begins with a function. -/
theorem LaidOut.exists_eq_cons {command : Command} {body : List UInt8} (h : command.LaidOut body) :
    ∃ function rest, body = function :: rest := by
  cases h <;> exact ⟨_, _, rfl⟩

/-- Function and body of a prepared command. -/
def body (command : Command) : List UInt8 :=
  match command with
  | readHolding start count => readHoldingCode :: (wordBytes start ++ wordBytes count)
  | writeSingle register value => writeSingleCode :: (wordBytes register ++ wordBytes value)
  | writeMultiple start payload =>
    writeMultipleCode ::
      (wordBytes start ++
        (wordBytes command.registerCount ++ UInt8.ofNat payload.length :: payload))
  | readRecords records =>
    readRecordsCode :: UInt8.ofNat (7 * records.length) :: FileRecord.requestParts records

/-- No record has more words than a word can count. -/
def SizesFit : Command → Prop
  | readRecords records => ∀ record ∈ records, record.size ≤ maxRecordSize
  | _ => True

/-! ### Preparing -/

theorem padded_of_even {payload : List UInt8} (heven : payload.length % 2 = 0) :
    padded payload = payload :=
  if_pos heven

/-- Padding is whatever of nothing and a zero makes whole words. -/
theorem padded_eq_append {payload padding : List UInt8} (hpadding : padding = [] ∨ padding = [0])
    (heven : (payload ++ padding).length % 2 = 0) : padded payload = payload ++ padding := by
  rcases hpadding with rfl | rfl
  · rw [List.append_nil] at heven ⊢
    exact padded_of_even heven
  · rw [List.length_append, List.length_singleton] at heven
    exact if_neg (by omega)

theorem exists_padding (payload : List UInt8) :
    ∃ padding, (padding = [] ∨ padding = [0]) ∧ (payload ++ padding).length % 2 = 0 := by
  rcases Nat.mod_two_eq_zero_or_one payload.length with heven | hodd
  · exact ⟨[], .inl rfl, by rw [List.append_nil, heven]⟩
  · refine ⟨[0], .inr rfl, ?_⟩
    rw [List.length_append, List.length_singleton]
    omega

@[simp] theorem padded_padded (payload : List UInt8) :
    padded (padded payload) = padded payload := by
  obtain ⟨padding, hpadding, heven⟩ := exists_padding payload
  rw [padded_eq_append hpadding heven, padded_of_even heven]

@[simp] theorem padded_eq_nil_iff {payload : List UInt8} : padded payload = [] ↔ payload = [] := by
  obtain ⟨padding, hpadding, heven⟩ := exists_padding payload
  constructor
  · intro h
    rw [padded_eq_append hpadding heven] at h
    exact (List.append_eq_nil_iff.mp h).1
  · rintro rfl
    rfl

/-- A payload is filled up to two bytes for each register that is written. -/
theorem length_padded (payload : List UInt8) :
    (padded payload).length = 2 * ((payload.length + 1) / 2) := by
  rw [padded]
  split
  · omega
  · rw [List.length_append, List.length_singleton]
    omega

/-- An odd last byte counts as a whole register. -/
theorem toNat_registerCount (address : UInt16) {payload : List UInt8}
    (hshort : payload.length < 256) :
    (registerCount (.writeMultiple address payload)).toNat = (payload.length + 1) / 2 := by
  refine UInt16.toNat_ofNat_of_lt' ?_
  rw [UInt16.size, Command.payload]
  omega

/-- **What is prepared**: every command but a bulk write of nothing and a request for no records. A
bulk write is padded. -/
theorem prepare_eq_ok_iff {command prepared : Command} :
    command.prepare = .ok prepared ↔
      match command with
      | writeMultiple start payload =>
        payload ≠ [] ∧ prepared = writeMultiple start (padded payload)
      | readRecords records => records ≠ [] ∧ prepared = readRecords records
      | command => prepared = command := by
  cases command with
  | readHolding | writeSingle => simp [prepare, eq_comm]
  | writeMultiple start payload => cases payload <;> simp [prepare, eq_comm]
  | readRecords records => cases records <;> simp [prepare, eq_comm]

/-- A command is prepared once. -/
theorem prepare_prepared {command prepared : Command} (h : command.prepare = .ok prepared) :
    prepared.prepare = .ok prepared := by
  rw [prepare_eq_ok_iff] at h ⊢
  cases command with
  | readHolding | writeSingle =>
    subst h
    rfl
  | writeMultiple start payload =>
    obtain ⟨hpayload, rfl⟩ := h
    simp [hpayload]
  | readRecords records =>
    obtain ⟨hrecords, rfl⟩ := h
    exact ⟨hrecords, rfl⟩

/-- **A prepared command that fits a message** travels as it should. -/
theorem laidOut_body {command prepared : Command} (hprepare : command.prepare = .ok prepared)
    (hsizes : prepared.SizesFit) (hfits : prepared.body.length + 3 ≤ maxFrameLen) :
    command.LaidOut prepared.body := by
  rw [prepare_eq_ok_iff] at hprepare
  cases command with
  | readHolding start count =>
    subst hprepare
    exact .readHolding start count
  | writeSingle register value =>
    subst hprepare
    exact .writeSingle register value
  | writeMultiple start payload =>
    obtain ⟨hpayload, rfl⟩ := hprepare
    obtain ⟨padding, hpadding, heven⟩ := exists_padding payload
    rw [padded_eq_append hpadding heven] at hfits ⊢
    have hshort : (payload ++ padding).length < 256 := by
      simp only [body, List.length_cons, List.length_append, length_wordBytes, maxFrameLen] at hfits
      rw [List.length_append]
      omega
    have hcount := toNat_registerCount start hshort
    refine .writeMultiple hpayload hpadding ?_ ?_
    · rw [hcount]
      omega
    · rw [hcount, UInt8.toNat_ofNat_of_lt' hshort]
      omega
  | readRecords records =>
    obtain ⟨hrecords, rfl⟩ := hprepare
    have hcount : 7 * records.length < 256 := by
      simp only [body, List.length_cons, FileRecord.length_requestParts, maxFrameLen] at hfits
      omega
    exact .readRecords hrecords (UInt8.toNat_ofNat_of_lt' hcount)
      fun record hmem => Nat.lt_succ_of_le (hsizes record hmem)

/-! ### Writing -/

theorem appends_writeRecords {capacity : Nat} {records : List FileRecord}
    (hsizes : ∀ record ∈ records, record.size ≤ maxRecordSize) :
    (writeRecords records : Codec capacity Unit).Appends (FileRecord.requestParts records) := by
  induction records with
  | nil => exact Codec.appends_pure
  | cons record records ih =>
    obtain ⟨hsize, hrest⟩ := List.forall_mem_cons.mp hsizes
    rw [writeRecords, if_neg (Nat.not_lt.mpr hsize), FileRecord.requestParts_cons]
    exact .byte_bind _ (.word_bind _ (.word_bind _ (.word_bind _ (ih hrest))))

/-- A record of too many words is not written. -/
theorem size_le_of_exec_writeRecords {capacity : Nat} {records : List FileRecord}
    {frame frame' : Frame capacity} (h : (writeRecords records).exec frame = (.ok (), frame')) :
    ∀ record ∈ records, record.size ≤ maxRecordSize := by
  induction records generalizing frame with
  | nil => exact List.forall_mem_nil _
  | cons record records ih =>
    by_cases hsize : maxRecordSize < record.size
    · rw [writeRecords, if_pos hsize] at h
      cases h
    · rw [writeRecords, if_neg hsize] at h
      obtain ⟨-, _, -, h⟩ := Codec.exec_bind_eq_ok_iff.mp h
      obtain ⟨-, _, -, h⟩ := Codec.exec_bind_eq_ok_iff.mp h
      obtain ⟨-, _, -, h⟩ := Codec.exec_bind_eq_ok_iff.mp h
      obtain ⟨-, _, -, h⟩ := Codec.exec_bind_eq_ok_iff.mp h
      exact List.forall_mem_cons.mpr ⟨Nat.not_lt.mp hsize, ih h⟩

section Write

variable {device : UInt8} {frame frame' : Frame maxFrameLen}

/-- What is appended to the device stands behind it. -/
theorem exec_appends_eq_ok_iff {step : Codec maxFrameLen Unit} {data : List UInt8}
    (hstep : step.Appends data) (hframe : frame.bytes = [device]) :
    step.exec frame = (.ok (), frame') ↔
      data.length + 1 ≤ maxFrameLen ∧ frame' = { frame with bytes := device :: data } := by
  have hfits : frame.bytes.length ≤ maxFrameLen := hframe ▸ (by decide : 1 ≤ maxFrameLen)
  rw [hstep.exec_eq_ok_iff hfits, hframe, Nat.add_comm]
  rfl

/-- The step that puts in how many bytes the parts of a request for file records have. -/
def putCount : Codec maxFrameLen Unit := do
  let frame ← get
  Codec.patch 2 (UInt8.ofNat (frame.bytes.length - 3))

theorem exec_putCount {records : List FileRecord}
    (hframe : frame.bytes = device :: readRecordsCode :: 0 :: FileRecord.requestParts records) :
    putCount.exec frame =
      (.ok (), { frame with bytes := device :: (readRecords records).body }) := by
  have hget : (get : Codec maxFrameLen (Frame maxFrameLen)).exec frame = (.ok frame, frame) := rfl
  have hcount : frame.bytes.length - 3 = 7 * records.length := by
    rw [hframe]
    simp
  have hroom : 2 < (device :: readRecordsCode :: 0 :: FileRecord.requestParts records).length := by
    simp
  rw [putCount, Codec.exec_bind_of_ok hget, Codec.exec_patch, hcount, hframe, if_pos hroom]
  rfl

theorem exec_write_readRecords_eq_ok_iff {records : List FileRecord}
    (hframe : frame.bytes = [device]) :
    (write (readRecords records)).exec frame = (.ok (), frame') ↔
      (readRecords records).SizesFit ∧ (readRecords records).body.length + 1 ≤ maxFrameLen ∧
        frame' = { frame with bytes := device :: (readRecords records).body } := by
  have hwrite : (write (readRecords records) : Codec maxFrameLen Unit) =
      (do Codec.byte readRecordsCode; Codec.byte 0; writeRecords records) >>= fun _ =>
        putCount := by
    simp only [write, putCount, bind_assoc]
  have happends (hsizes : (readRecords records).SizesFit) :
      (do Codec.byte readRecordsCode; Codec.byte 0; writeRecords records :
        Codec maxFrameLen Unit).Appends
          (readRecordsCode :: 0 :: FileRecord.requestParts records) :=
    .byte_bind _ (.byte_bind _ (appends_writeRecords hsizes))
  rw [hwrite, Codec.exec_bind_eq_ok_iff]
  constructor
  · rintro ⟨⟨⟩, middle, hmiddle, hcount⟩
    obtain ⟨-, _, -, hrest⟩ := Codec.exec_bind_eq_ok_iff.mp hmiddle
    obtain ⟨-, _, -, hrest⟩ := Codec.exec_bind_eq_ok_iff.mp hrest
    have hsizes := size_le_of_exec_writeRecords hrest
    obtain ⟨hroom, rfl⟩ := (exec_appends_eq_ok_iff (happends hsizes) hframe).mp hmiddle
    rw [exec_putCount rfl] at hcount
    cases hcount
    exact ⟨hsizes, hroom, rfl⟩
  · rintro ⟨hsizes, hroom, rfl⟩
    exact ⟨(), _, (exec_appends_eq_ok_iff (happends hsizes) hframe).mpr ⟨hroom, rfl⟩,
      exec_putCount rfl⟩

/-- **What is written** behind the device: the body of the command, if it fits. -/
theorem exec_write_eq_ok_iff {command : Command} (hframe : frame.bytes = [device]) :
    command.write.exec frame = (.ok (), frame') ↔
      command.SizesFit ∧ command.body.length + 1 ≤ maxFrameLen ∧
        frame' = { frame with bytes := device :: command.body } := by
  cases command with
  | readHolding start count =>
    simp only [SizesFit, true_and]
    exact exec_appends_eq_ok_iff (.byte_bind _ (.word_bind _ (Codec.appends_write _))) hframe
  | writeSingle register value =>
    simp only [SizesFit, true_and]
    exact exec_appends_eq_ok_iff (.byte_bind _ (.word_bind _ (Codec.appends_write _))) hframe
  | writeMultiple start payload =>
    simp only [SizesFit, true_and]
    exact exec_appends_eq_ok_iff (.byte_bind _ (.word_bind _ (.word_bind _ (.byte_bind _
      (Codec.appends_write _))))) hframe
  | readRecords records => exact exec_write_readRecords_eq_ok_iff hframe

end Write

end Command

namespace Request

/-- **What a request is laid out as**, whatever the frame held before: device and body, sealed. -/
theorem exec_layOut_eq_ok_iff {device : UInt8} {command : Command}
    {frame frame' : Frame maxFrameLen} :
    (layOut device command).exec frame = (.ok (), frame') ↔
      command.SizesFit ∧ command.body.length + 3 ≤ maxFrameLen ∧
        frame' =
          { expectedLen := frame.expectedLen, bytes := sealed (device :: command.body) } := by
  have hdevice : (Codec.byte device : Codec maxFrameLen Unit).exec
      { frame with bytes := [], remaining := 0 } =
      (.ok (), { expectedLen := frame.expectedLen, bytes := [device] }) := by
    rw [Codec.byte, Codec.exec_write]
    exact if_pos (by decide : 1 ≤ maxFrameLen)
  have hclose (hshort : command.body.length + 1 ≤ maxFrameLen) :
      Codec.close.exec { expectedLen := frame.expectedLen, bytes := device :: command.body } =
        (.ok (), frame') ↔ command.body.length + 3 ≤ maxFrameLen ∧
          frame' =
            { expectedLen := frame.expectedLen, bytes := sealed (device :: command.body) } := by
    rw [Codec.exec_close_eq_ok_iff hshort, List.length_cons, crcLen, Nat.add_assoc]
  rw [layOut, Codec.exec_bind_of_ok (Codec.exec_clear frame), Codec.exec_bind_of_ok hdevice,
    Codec.exec_bind_eq_ok_iff]
  constructor
  · rintro ⟨⟨⟩, middle, hmiddle, hframe⟩
    obtain ⟨hsizes, hroom, rfl⟩ := (Command.exec_write_eq_ok_iff rfl).mp hmiddle
    exact ⟨hsizes, (hclose hroom).mp hframe⟩
  · rintro ⟨hsizes, hroom, rfl⟩
    have hshort : command.body.length + 1 ≤ maxFrameLen := by omega
    exact ⟨(), _, (Command.exec_write_eq_ok_iff rfl).mpr ⟨hsizes, hshort, rfl⟩,
      (hclose hshort).mpr ⟨hroom, rfl⟩⟩

/-- **What is encoded**: every command that can be prepared and fits a message. -/
theorem encode_eq_ok_iff {request sent : Request} :
    request.encode = (.ok (), sent) ↔
      ∃ prepared, request.command.prepare = .ok prepared ∧ prepared.SizesFit ∧
        prepared.body.length + 3 ≤ maxFrameLen ∧
          sent = {
            device := request.device
            command := prepared
            frame := {
              expectedLen := request.frame.expectedLen
              bytes := sealed (request.device :: prepared.body) } } := by
  rw [encode]
  cases hprepare : request.command.prepare with
  | error e => simp
  | ok prepared =>
    rcases hexec : (layOut request.device prepared).exec request.frame with ⟨outcome, frame⟩
    simp only [hexec]
    constructor
    · intro h
      cases h
      obtain ⟨hsizes, hroom, hframe⟩ := exec_layOut_eq_ok_iff.mp hexec
      exact ⟨prepared, rfl, hsizes, hroom, by rw [hframe]⟩
    · rintro ⟨prepared', hprepared, hsizes, hroom, rfl⟩
      cases hprepared
      have hok := (@exec_layOut_eq_ok_iff request.device _ request.frame _).mpr ⟨hsizes, hroom, rfl⟩
      rw [hexec] at hok
      cases hok
      rfl

end Request

end Modbus
