import Mathlib.Data.List.TakeWhile
import Modbus.Proofs.Request.Layout

/-!
# A request for file records that is cut short

A request for file records is written field by field, and each field goes in as a whole or not at
all. So where the writing stops, at a record of too many words or at the end of the frame, whole
fields are left behind (`Codec.WritesFields`): those of the records before the one that is too long,
as far as there is room for them (`Command.writesFields_writeRecords`). A message has room for the
fields in front of the records, for 36 records and for one byte more
(`Codec.wholeFields_requestFields`), but only 35 records leave room for the check.

`Request.record_requests_encode` says which requests for file records are encoded, as what, and what
all others leave in the frame.
-/

namespace Modbus

namespace Codec

variable {capacity : Nat}

/-- The fields that fit one behind the other, up to the first that does not. -/
def wholeFields (room : Nat) : List (List UInt8) → List (List UInt8)
  | [] => []
  | field :: fields =>
    if field.length ≤ room then field :: wholeFields (room - field.length) fields else []

theorem length_flatten_wholeFields_le (room : Nat) (fields : List (List UInt8)) :
    (wholeFields room fields).flatten.length ≤ room := by
  induction fields generalizing room with
  | nil => exact Nat.zero_le room
  | cons field fields ih =>
    rw [wholeFields]
    split
    · next hroom =>
      have hrest := ih (room - field.length)
      rw [List.flatten_cons, List.length_append]
      omega
    · exact Nat.zero_le room

/-- A step that writes fields one behind the other, as many as there is room for, and succeeds if
these are all of them and nothing else is in the way. -/
structure WritesFields (step : Codec capacity Unit) (fields : List (List UInt8))
    (unhindered : Bool) : Prop where
  exec_eq {frame : Frame capacity} (hfits : frame.bytes.length ≤ capacity) :
    step.exec frame =
      (if unhindered ∧ wholeFields (capacity - frame.bytes.length) fields = fields then .ok ()
        else .error .outOfBuffer,
        { frame with
          bytes := frame.bytes ++
            (wholeFields (capacity - frame.bytes.length) fields).flatten })

theorem writesFields_pure : (pure () : Codec capacity Unit).WritesFields [] true where
  exec_eq {frame} _ := by simp [wholeFields]

theorem writesFields_throw :
    (throw .outOfBuffer : Codec capacity Unit).WritesFields [] false where
  exec_eq {frame} _ := by simp [wholeFields]

/-- **A field is written** in front of others. -/
theorem WritesFields.write_bind {next : Codec capacity Unit} {fields : List (List UInt8)}
    {unhindered : Bool} (field : List UInt8) (hnext : next.WritesFields fields unhindered) :
    (write field >>= fun _ => next).WritesFields (field :: fields) unhindered where
  exec_eq {frame} hfits := by
    by_cases hroom : field.length ≤ capacity - frame.bytes.length
    · have hwrite : (write field).exec frame =
          (.ok (), { frame with bytes := frame.bytes ++ field }) := by
        rw [exec_write, if_pos (by omega)]
      have hlength : (frame.bytes ++ field).length ≤ capacity := by
        rw [List.length_append]
        omega
      have hleft : capacity - (frame.bytes ++ field).length =
          capacity - frame.bytes.length - field.length := by
        rw [List.length_append, Nat.sub_sub]
      have hwhole : wholeFields (capacity - frame.bytes.length) (field :: fields) =
          field :: wholeFields (capacity - frame.bytes.length - field.length) fields :=
        if_pos hroom
      rw [exec_bind_of_ok hwrite, hnext.exec_eq hlength, hleft, hwhole]
      simp only [List.cons.injEq, true_and, List.flatten_cons, List.append_assoc]
    · have hwrite : (write field).exec frame = (.error .outOfBuffer, frame) := by
        rw [exec_write, if_neg (by omega)]
      have hwhole : wholeFields (capacity - frame.bytes.length) (field :: fields) = [] :=
        if_neg hroom
      rw [exec_bind_of_error hwrite, hwhole, if_neg (by simp), List.flatten_nil, List.append_nil]

end Codec

namespace FileRecord

/-- The fields of a request that ask for records, four for each. -/
def requestFields (records : List FileRecord) : List (List UInt8) :=
  records.flatMap fun record =>
    [[fileReference], wordBytes record.file, wordBytes record.record,
      wordBytes (UInt16.ofNat record.size)]

theorem requestFields_cons (record : FileRecord) (records : List FileRecord) :
    requestFields (record :: records) =
      [fileReference] :: wordBytes record.file :: wordBytes record.record ::
        wordBytes (UInt16.ofNat record.size) :: requestFields records := rfl

@[simp] theorem length_requestFields (records : List FileRecord) :
    (requestFields records).length = 4 * records.length := by
  induction records with
  | nil => rfl
  | cons record records ih =>
    rw [requestFields_cons]
    simp only [List.length_cons, ih]
    omega

@[simp] theorem flatten_requestFields (records : List FileRecord) :
    (requestFields records).flatten = requestParts records := by
  induction records with
  | nil => rfl
  | cons record records ih =>
    rw [requestFields_cons, requestParts_cons, ← ih]
    rfl

end FileRecord

/-- Where there is room for some records and one byte, the reference of one more fits. -/
theorem Codec.wholeFields_requestFields (count : Nat) (records : List FileRecord) :
    wholeFields (7 * count + 1) (FileRecord.requestFields records) =
      (FileRecord.requestFields records).take (4 * count + 1) := by
  induction count generalizing records with
  | zero =>
    cases records with
    | nil => rfl
    | cons record records =>
      rw [FileRecord.requestFields_cons]
      simp [wholeFields]
  | succ count ih =>
    cases records with
    | nil => rfl
    | cons record records =>
      have hroom : 7 * (count + 1) + 1 - 1 - 2 - 2 - 2 = 7 * count + 1 := by omega
      have hfields : 4 * (count + 1) + 1 = 4 * count + 1 + 1 + 1 + 1 + 1 := by omega
      rw [FileRecord.requestFields_cons, hfields]
      simp only [wholeFields, List.length_singleton, length_wordBytes, List.take_succ_cons, hroom,
        ih]
      rw [if_pos (by omega), if_pos (by omega), if_pos (by omega), if_pos (by omega)]

namespace Command

/-- The record does not ask for more words than a word can count. -/
def isWritable (record : FileRecord) : Bool :=
  record.size ≤ maxRecordSize

/-- **What is written of records**: all fields of those before the first that has too many words, as
far as there is room. -/
theorem writesFields_writeRecords {capacity : Nat} (records : List FileRecord) :
    (writeRecords records : Codec capacity Unit).WritesFields
      (FileRecord.requestFields (records.takeWhile isWritable)) (records.all isWritable) := by
  induction records with
  | nil => exact Codec.writesFields_pure
  | cons record records ih =>
    by_cases hsize : record.size ≤ maxRecordSize
    · have hwritable : isWritable record = true := decide_eq_true hsize
      rw [writeRecords, if_neg (Nat.not_lt.mpr hsize), List.takeWhile_cons, if_pos hwritable,
        List.all_cons, hwritable, FileRecord.requestFields_cons, Bool.true_and]
      exact .write_bind _ (.write_bind _ (.write_bind _ (.write_bind _ ih)))
    · have hhindered : isWritable record = false := decide_eq_false hsize
      have hstop : (writeRecords (record :: records) : Codec capacity Unit) =
          throw .outOfBuffer := by
        rw [writeRecords, if_pos (Nat.not_le.mp hsize)]
        rfl
      rw [hstop, List.takeWhile_cons, hhindered, List.all_cons, hhindered, Bool.false_and]
      exact Codec.writesFields_throw

theorem all_isWritable_iff {records : List FileRecord} :
    records.all isWritable = true ↔ ∀ record ∈ records, record.size ≤ maxRecordSize := by
  simp only [List.all_eq_true, isWritable, decide_eq_true_eq]

theorem takeWhile_isWritable {records : List FileRecord} (h : records.all isWritable = true) :
    records.takeWhile isWritable = records :=
  List.takeWhile_eq_self_iff.mpr (List.all_eq_true.mp h)

/-- The records in front of one that asks for too many words are fewer than all. -/
theorem length_takeWhile_lt {records : List FileRecord} (h : records.all isWritable = false) :
    (records.takeWhile isWritable).length < records.length := by
  have hfront : records.takeWhile isWritable <+: records := List.takeWhile_prefix isWritable
  refine Nat.lt_of_le_of_ne hfront.length_le fun hlength => ?_
  have hall := List.takeWhile_eq_self_iff.mp (hfront.eq_of_length hlength)
  rw [List.all_eq_true.mpr hall] at h
  cases h

end Command

namespace Request

/-! ### Where the writing stops -/

/-- A request for file records, field by field, without the check. -/
def recordsByField (device byteCount : UInt8) (records : List FileRecord) : List (List UInt8) :=
  [device] :: [readRecordsCode] :: [byteCount] :: FileRecord.requestFields records

/-- As many fields as a message has room for: the three in front of the records, those of 36 records
and the reference of one more. -/
def fieldLimit : Nat := 148

theorem length_recordsByField (device byteCount : UInt8) (records : List FileRecord) :
    (recordsByField device byteCount records).length = 3 + 4 * records.length := by
  simp only [recordsByField, List.length_cons, FileRecord.length_requestFields]
  omega

theorem flatten_recordsByField (device byteCount : UInt8) (records : List FileRecord) :
    (recordsByField device byteCount records).flatten =
      device :: readRecordsCode :: byteCount :: FileRecord.requestParts records := by
  simp [recordsByField]

/-- A message has room for so many fields. -/
theorem wholeFields_recordsByField (device byteCount : UInt8) (records : List FileRecord) :
    Codec.wholeFields maxFrameLen (recordsByField device byteCount records) =
      (recordsByField device byteCount records).take fieldLimit := by
  have hrecords := Codec.wholeFields_requestFields 36 records
  simp only [recordsByField, fieldLimit, List.take_succ_cons, ← hrecords]
  rfl

/-- A message has room for the fields of 36 records. -/
theorem take_recordsByField (device byteCount : UInt8) {records : List FileRecord}
    (hcount : records.length ≤ 36) :
    (recordsByField device byteCount records).take fieldLimit =
      recordsByField device byteCount records := by
  refine List.take_of_length_le ?_
  rw [length_recordsByField, fieldLimit]
  omega

/-- Records in front of others are written in front of theirs. -/
theorem recordsByField_takeWhile_prefix (device byteCount : UInt8) (records : List FileRecord)
    (p : FileRecord → Bool) :
    recordsByField device byteCount (records.takeWhile p) <+:
      recordsByField device byteCount records := by
  obtain ⟨rest, hrest⟩ : records.takeWhile p <+: records := List.takeWhile_prefix p
  have hall := congrArg (recordsByField device byteCount) hrest
  refine ⟨FileRecord.requestFields rest, ?_⟩
  rw [← hall]
  simp only [recordsByField, FileRecord.requestFields, List.flatMap_append, List.cons_append]

/-- Device, function, a byte count that is put in later, and the records. -/
def writeHeaderAndRecords (device : UInt8) (records : List FileRecord) :
    Codec maxFrameLen Unit := do
  Codec.byte device
  Codec.byte readRecordsCode
  Codec.byte 0
  Command.writeRecords records

theorem layOut_readRecords (device : UInt8) (records : List FileRecord) :
    layOut device (.readRecords records) =
      Codec.clear >>= fun _ => writeHeaderAndRecords device records >>= fun _ =>
        Command.putCount >>= fun _ => Codec.close := by
  simp only [layOut, Command.write, writeHeaderAndRecords, Command.putCount, bind_assoc]

theorem writesFields_writeHeaderAndRecords (device : UInt8) (records : List FileRecord) :
    (writeHeaderAndRecords device records).WritesFields
      (recordsByField device 0 (records.takeWhile Command.isWritable))
      (records.all Command.isWritable) :=
  .write_bind _ (.write_bind _ (.write_bind _ (Command.writesFields_writeRecords records)))

/-- What a request that can be prepared is encoded as is what it is laid out as. -/
theorem encode_of_prepare {request : Request} {command : Command} {frame : Frame maxFrameLen}
    {outcome : Except WireError Unit} (hprepare : request.command.prepare = .ok command)
    (hexec : (layOut request.device command).exec request.frame = (outcome, frame)) :
    request.encode = (outcome, { request with command, frame }) := by
  rw [encode, hprepare]
  simp only [hexec]

section CutShort

variable {device : UInt8} {records : List FileRecord} {frame : Frame maxFrameLen}

/-- What is in the frame in front of the byte count, once it has been cleared. -/
theorem exec_writeHeaderAndRecords (device : UInt8) (records : List FileRecord)
    (frame : Frame maxFrameLen) :
    (writeHeaderAndRecords device records).exec { frame with bytes := [], remaining := 0 } =
      (if records.all Command.isWritable = true ∧
          (recordsByField device 0 (records.takeWhile Command.isWritable)).take fieldLimit =
            recordsByField device 0 (records.takeWhile Command.isWritable) then .ok ()
        else .error .outOfBuffer,
        { expectedLen := frame.expectedLen
          bytes := ((recordsByField device 0 (records.takeWhile Command.isWritable)).take
            fieldLimit).flatten }) := by
  have hexec := (writesFields_writeHeaderAndRecords device records).exec_eq
    (show ({ frame with bytes := [], remaining := 0 } : Frame maxFrameLen).bytes.length ≤
      maxFrameLen from Nat.zero_le _)
  rw [List.length_nil, Nat.sub_zero, List.nil_append, wholeFields_recordsByField] at hexec
  exact hexec

/-- **All records are written** and there is no room for the check. -/
theorem exec_layOut_unsealed (hwritable : records.all Command.isWritable = true)
    (hcount : records.length = 36) :
    (layOut device (.readRecords records)).exec frame =
      (.error .outOfBuffer,
        { expectedLen := frame.expectedLen
          bytes := (recordsByField device 252 records).flatten }) := by
  have hwhole := take_recordsByField device 0 hcount.le
  have hwritten : (writeHeaderAndRecords device records).exec
      { frame with bytes := [], remaining := 0 } =
        (.ok (),
          { expectedLen := frame.expectedLen
            bytes := device :: readRecordsCode :: 0 :: FileRecord.requestParts records }) := by
    rw [exec_writeHeaderAndRecords, Command.takeWhile_isWritable hwritable, hwhole,
      if_pos ⟨hwritable, rfl⟩, flatten_recordsByField]
  have hbody : device :: (Command.readRecords records).body =
      (recordsByField device 252 records).flatten := by
    rw [flatten_recordsByField, Command.body, hcount]
    rfl
  have hfull : ¬ (recordsByField device 252 records).flatten.length + 2 ≤ maxFrameLen := by
    rw [flatten_recordsByField, List.length_cons, List.length_cons, List.length_cons,
      FileRecord.length_requestParts, hcount]
    decide
  rw [layOut_readRecords, Codec.exec_bind_of_ok (Codec.exec_clear frame),
    Codec.exec_bind_of_ok hwritten, Codec.exec_bind_of_ok (Command.exec_putCount rfl), hbody,
    Codec.exec_close, Codec.exec_write]
  exact if_neg hfull

/-- **Not all records are written**, because one has too many words or there is no room for them. -/
theorem exec_layOut_unfinished
    (hcut : records.all Command.isWritable = false ∨ 36 < records.length) :
    (layOut device (.readRecords records)).exec frame =
      (.error .outOfBuffer,
        { expectedLen := frame.expectedLen
          bytes := ((recordsByField device 0 (records.takeWhile Command.isWritable)).take
            fieldLimit).flatten }) := by
  have hstops : ¬ (records.all Command.isWritable = true ∧
      (recordsByField device 0 (records.takeWhile Command.isWritable)).take fieldLimit =
        recordsByField device 0 (records.takeWhile Command.isWritable)) := by
    rintro ⟨hwritable, hwhole⟩
    have hmany := hcut.resolve_left (by simp [hwritable])
    have hfields := congrArg List.length hwhole
    rw [Command.takeWhile_isWritable hwritable, List.length_take, length_recordsByField,
      fieldLimit] at hfields
    omega
  have hheader := exec_writeHeaderAndRecords device records frame
  rw [if_neg hstops] at hheader
  rw [layOut_readRecords, Codec.exec_bind_of_ok (Codec.exec_clear frame),
    Codec.exec_bind_of_error hheader]

/-- Then the fields that are written are not those of all records. -/
theorem take_recordsByField_ne (byteCount : UInt8)
    (hcut : records.all Command.isWritable = false ∨ 36 < records.length) :
    (recordsByField device byteCount (records.takeWhile Command.isWritable)).take fieldLimit ≠
      recordsByField device byteCount records := by
  intro hall
  have hfields := congrArg List.length hall
  rw [List.length_take, length_recordsByField, length_recordsByField, fieldLimit] at hfields
  rcases hcut with hhindered | hmany
  · have hfewer := Command.length_takeWhile_lt hhindered
    omega
  · omega

end CutShort

/-! ### What becomes of a request for file records -/

section Encode

variable {device : UInt8} {records : List FileRecord} {frame : Frame maxFrameLen} {sent : Request}

/-- A request for file records is encoded if the records and the check fit a message. -/
theorem encode_readRecords_eq_ok_iff :
    encode { device, command := .readRecords records, frame } = (.ok (), sent) ↔
      (1 ≤ records.length ∧ records.length ≤ 35 ∧ ∀ record ∈ records, record.size ≤ 65535) ∧
        sent = {
          device
          command := .readRecords records
          frame := {
            expectedLen := frame.expectedLen
            bytes := sealed
              (recordsByField device (UInt8.ofNat (7 * records.length)) records).flatten } } := by
  have hlength : (Command.readRecords records).body.length + 3 ≤ maxFrameLen ↔
      records.length ≤ 35 := by
    rw [Command.body, List.length_cons, List.length_cons, FileRecord.length_requestParts,
      maxFrameLen]
    omega
  have hpos : records ≠ [] ↔ 1 ≤ records.length := List.length_pos_iff.symm
  rw [encode_eq_ok_iff]
  simp only [Command.prepare_eq_ok_iff, flatten_recordsByField]
  constructor
  · rintro ⟨_, ⟨hrecords, rfl⟩, hsizes, hroom, rfl⟩
    exact ⟨⟨hpos.mp hrecords, hlength.mp hroom, hsizes⟩, rfl⟩
  · rintro ⟨⟨hrecords, hroom, hsizes⟩, rfl⟩
    exact ⟨_, ⟨hpos.mpr hrecords, rfl⟩, hsizes, hlength.mpr hroom, rfl⟩

theorem encode_readRecords_eq {outcome : Except WireError Unit} {after : Frame maxFrameLen}
    (hrecords : records ≠ [])
    (hexec : (layOut device (.readRecords records)).exec frame = (outcome, after)) :
    encode { device, command := .readRecords records, frame } =
      (outcome, { device, command := .readRecords records, frame := after }) :=
  encode_of_prepare (Command.prepare_eq_ok_iff.mpr ⟨hrecords, rfl⟩) hexec

/-- As many fields as there is room for are not more bytes than there is room for. -/
theorem length_flatten_take_le (byteCount : UInt8) :
    ((recordsByField device byteCount records).take fieldLimit).flatten.length ≤ maxFrameLen := by
  rw [← wholeFields_recordsByField]
  exact Codec.length_flatten_wholeFields_le _ _

end Encode

/-- **Which requests for file records are encoded**: those for one to 35 records of at most 65535
words each. The frame then holds the fields and the check, and the byte count is that of the records
behind it. A request for no records fails and changes nothing. All others are cut short: the frame
holds as many fields as there is room for of the records before the first with too many words, and
the byte count is put in only if these are all. -/
theorem record_requests_encode (device : UInt8) (records : List FileRecord)
    (frame : Frame maxFrameLen) :
    let request : Request := { device, command := .readRecords records, frame }
    let encodable :=
      1 ≤ records.length ∧ records.length ≤ 35 ∧ ∀ record ∈ records, record.size ≤ 65535
    ((∃ sent, request.encode = (.ok (), sent)) ↔ encodable) ∧
    (∀ sent, request.encode = (.ok (), sent) →
      ∃ byteCount : UInt8, byteCount.toNat = 7 * records.length ∧
        sent.frame.bytes = sealed (recordsByField device byteCount records).flatten ∧
        sent.frame.bytes.length = 5 + 7 * records.length ∧
        sent.frame.bytes[2]? = some byteCount) ∧
    (records = [] → request.encode = (.error (.underflow "No records to read"), request)) ∧
    (records ≠ [] → ¬ encodable → ∃ byteCount written,
      request.encode = (.error .outOfBuffer,
        { request with
          frame := { expectedLen := frame.expectedLen, bytes := written.flatten } }) ∧
      written = (recordsByField device byteCount
        (records.takeWhile Command.isWritable)).take fieldLimit ∧
      written <+: recordsByField device byteCount records ∧
      written.flatten.length ≤ 256 ∧
      (written = recordsByField device byteCount records ∧ byteCount.toNat = 7 * records.length ∨
        written ≠ recordsByField device byteCount records ∧ byteCount = 0)) := by
  intro request encodable
  refine ⟨⟨fun ⟨sent, hsent⟩ => (encode_readRecords_eq_ok_iff.mp hsent).1,
    fun hencodable => ⟨_, encode_readRecords_eq_ok_iff.mpr ⟨hencodable, rfl⟩⟩⟩,
    fun sent hsent => ?_, ?_, fun hrecords hunencodable => ?_⟩
  · obtain ⟨⟨-, hlength, -⟩, rfl⟩ := encode_readRecords_eq_ok_iff.mp hsent
    have hcount : (UInt8.ofNat (7 * records.length)).toNat = 7 * records.length :=
      UInt8.toNat_ofNat_of_lt' (by rw [UInt8.size]; omega)
    refine ⟨_, hcount, rfl, ?_, ?_⟩
    · rw [length_sealed, flatten_recordsByField]
      simp only [List.length_cons, FileRecord.length_requestParts]
      omega
    · rw [flatten_recordsByField]
      rfl
  · rintro rfl
    rfl
  · by_cases hall : records.all Command.isWritable = true ∧ records.length = 36
    · obtain ⟨hwritable, hcount⟩ := hall
      have hwhole := take_recordsByField device 252 hcount.le
      refine ⟨252, _, encode_readRecords_eq hrecords (exec_layOut_unsealed hwritable hcount), ?_,
        List.prefix_rfl, ?_, .inl ⟨rfl, by rw [hcount]; rfl⟩⟩
      · rw [Command.takeWhile_isWritable hwritable, hwhole]
      · rw [← hwhole]
        exact length_flatten_take_le 252
    · have hcut : records.all Command.isWritable = false ∨ 36 < records.length := by
        cases hwritable : records.all Command.isWritable with
        | false => exact .inl rfl
        | true =>
          have hpos := List.length_pos_iff.mpr hrecords
          have hmany : ¬ records.length ≤ 35 := fun hfew =>
            hunencodable ⟨hpos, hfew, Command.all_isWritable_iff.mp hwritable⟩
          have hother : records.length ≠ 36 := fun hcount => hall ⟨hwritable, hcount⟩
          exact .inr (by omega)
      have hfront := recordsByField_takeWhile_prefix device 0 records Command.isWritable
      exact ⟨0, _, encode_readRecords_eq hrecords (exec_layOut_unfinished hcut), rfl,
        (List.take_prefix _ _).trans hfront, length_flatten_take_le 0,
        .inr ⟨take_recordsByField_ne 0 hcut, rfl⟩⟩

end Request

end Modbus
