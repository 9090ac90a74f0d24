import Modbus.Proofs.Frame.Reading
import Modbus.Proofs.Reply.Layout

/-!
# The fields of a reply

What becomes of a sealed message of the length that is due is a matter of its body alone.
`Reply.fields` lists the fields of the body that are checked, in the order in which they are, and
`Reply.fill` is the reply with the contents of the body. `Reply.decode_sealed` says that decoding is
just that: the fields are checked one after the other (`checkAll`), and if all of them pass the
filled reply is the answer. With `Reply.exists_sealed_of_decode_eq_ok`, which says that nothing but
such messages is ever accepted, no later proof has to look into a frame.

The fields of file records are checked from the last record to the first, while their parts stand
in the order of the records. Both `Reply.recordFields` and `Reply.fillRecords` go through the body
from its front; `Reply.exec_takeRecords` relates them to reading from the end, by induction on the
records with the front of the message left open.
-/

namespace Modbus

/-! ### Checking fields -/

/-- A field of a received message, by name, beside what the command implies for it. -/
structure Field where
  name : String
  actual : UInt32
  expected : UInt32
deriving DecidableEq, Repr

/-- Check fields up to the first that does not hold what is expected. -/
def checkAll : List Field → Except WireError Unit
  | [] => .ok ()
  | field :: fields =>
    (checkField field.name field.actual field.expected).bind fun _ => checkAll fields

theorem checkAll_append (fields others : List Field) :
    checkAll (fields ++ others) = (checkAll fields).bind fun _ => checkAll others := by
  induction fields with
  | nil => rfl
  | cons field fields ih =>
    rw [List.cons_append, checkAll, checkAll, ih]
    cases checkField field.name field.actual field.expected with
    | error e => rfl
    | ok u => rfl

theorem map_checkAll_cons {α : Type} (field : Field) (fields : List Field) (f : Unit → α) :
    (checkAll (field :: fields)).map f =
      (checkField field.name field.actual field.expected).bind fun _ =>
        (checkAll fields).map f := by
  rw [checkAll]
  cases checkField field.name field.actual field.expected with
  | error e => rfl
  | ok u => rfl

/-- Fields pass when each of them holds what is expected. -/
theorem checkAll_eq_ok_iff {fields : List Field} :
    checkAll fields = .ok () ↔ ∀ field ∈ fields, field.actual = field.expected := by
  induction fields with
  | nil => simp [checkAll]
  | cons field fields ih =>
    rw [checkAll, List.forall_mem_cons, ← ih]
    unfold checkField
    split
    · next heq => simp [heq, Except.bind]
    · next hne => simp [hne, Except.bind]

namespace Reply

/-! ### What the body of a message says -/

/-- The fields of the parts of file records: those of the last record come first, and in each part
the reference comes before the size. -/
def recordFields : List FileRecord → List UInt8 → List Field
  | record :: records, fieldSize :: reference :: bytes =>
    recordFields records (bytes.drop (2 * record.size)) ++
      [{ name := "reference", actual := reference.toUInt32, expected := fileReference.toUInt32 },
        { name := "field_size", actual := fieldSize.toUInt32,
          expected := UInt32.ofNat (1 + 2 * record.size) }]
  | _, _ => []

/-- File records with the words of their parts. -/
def fillRecords : List FileRecord → List UInt8 → List FileRecord
  | record :: records, _ :: _ :: bytes =>
    record.withData (wordsOfBytes (bytes.take (2 * record.size))) ::
      fillRecords records (bytes.drop (2 * record.size))
  | _, _ => []

/-- The fields of a body in the order in which they are checked. -/
def fields (reply : Reply) (body : List UInt8) : List Field :=
  match reply, body with
  | holding device words, sender :: function :: byteCount :: _ =>
    [{ name := "function", actual := function.toUInt32, expected := readHoldingCode.toUInt32 },
      { name := "byte_count", actual := byteCount.toUInt32,
        expected := UInt32.ofNat (2 * words.length) },
      { name := "dev_addr", actual := sender.toUInt32, expected := device.toUInt32 }]
  | single device register expected _,
      [sender, function, offsetHigh, offsetLow, valueHigh, valueLow] =>
    [{ name := "dev_addr", actual := sender.toUInt32, expected := device.toUInt32 },
      { name := "function", actual := function.toUInt32, expected := writeSingleCode.toUInt32 },
      { name := "reg_off", actual := (wordOfBytes offsetHigh offsetLow).toUInt32,
        expected := register.toUInt32 }] ++
      (expected.map fun due =>
        { name := "value", actual := (wordOfBytes valueHigh valueLow).toUInt32,
          expected := due.toUInt32 : Field }).toList
  | multiple device start count, [sender, function, startHigh, startLow, countHigh, countLow] =>
    [{ name := "dev_addr", actual := sender.toUInt32, expected := device.toUInt32 },
      { name := "function", actual := function.toUInt32, expected := writeMultipleCode.toUInt32 },
      { name := "starting_addr", actual := (wordOfBytes startHigh startLow).toUInt32,
        expected := start.toUInt32 },
      { name := "reg_count", actual := (wordOfBytes countHigh countLow).toUInt32,
        expected := count.toUInt32 }]
  | file device records, sender :: function :: dataLen :: bytes =>
    recordFields records bytes ++
      [{ name := "data_len", actual := dataLen.toUInt32,
          expected := UInt32.ofNat (FileRecord.replyLen records) },
        { name := "function", actual := function.toUInt32, expected := readRecordsCode.toUInt32 },
        { name := "dev_addr", actual := sender.toUInt32, expected := device.toUInt32 }]
  | _, _ => []

/-- The reply with the contents of a body. -/
def fill (reply : Reply) (body : List UInt8) : Reply :=
  match reply with
  | holding device _ => holding device (wordsOfBytes (body.drop 3))
  | single device register expected _ =>
    single device register expected ((wordsOfBytes (body.drop 4)).headD 0)
  | multiple device start count => multiple device start count
  | file device records => file device (fillRecords records (body.drop 3))

/-! ### Reading file records from the end -/

/-- The bytes of file records are the part of the first record and the bytes of the others. -/
theorem exists_part {record : FileRecord} {records : List FileRecord} {bytes : List UInt8}
    (hlength : bytes.length = FileRecord.replyLen (record :: records)) :
    ∃ fieldSize reference data later, data.length = 2 * record.size ∧
      later.length = FileRecord.replyLen records ∧
        bytes = fieldSize :: reference :: (data ++ later) := by
  rw [FileRecord.replyLen] at hlength
  rcases bytes with _ | ⟨fieldSize, _ | ⟨reference, rest⟩⟩
  · simp only [List.length_nil] at hlength
    omega
  · simp only [List.length_cons, List.length_nil] at hlength
    omega
  · simp only [List.length_cons] at hlength
    refine ⟨fieldSize, reference, rest.take (2 * record.size), rest.drop (2 * record.size),
      ?_, ?_, by rw [List.take_append_drop]⟩
    · rw [List.length_take]
      omega
    · rw [List.length_drop]
      omega

section Part

variable {record : FileRecord} {data : List UInt8}

theorem recordFields_cons (hdata : data.length = 2 * record.size) (records : List FileRecord)
    (fieldSize reference : UInt8) (later : List UInt8) :
    recordFields (record :: records) (fieldSize :: reference :: (data ++ later)) =
      recordFields records later ++
        [⟨"reference", reference.toUInt32, fileReference.toUInt32⟩,
          ⟨"field_size", fieldSize.toUInt32, UInt32.ofNat (1 + 2 * record.size)⟩] := by
  rw [recordFields, List.drop_left' hdata]

theorem fillRecords_cons (hdata : data.length = 2 * record.size) (records : List FileRecord)
    (fieldSize reference : UInt8) (later : List UInt8) :
    fillRecords (record :: records) (fieldSize :: reference :: (data ++ later)) =
      record.withData (wordsOfBytes data) :: fillRecords records later := by
  rw [fillRecords, List.drop_left' hdata, List.take_left' hdata]

end Part

/-- **File records read from the end** of a message are what their parts say from its front. -/
theorem exec_takeRecords {capacity : Nat} (expectedLen : Nat) {records : List FileRecord}
    {bytes : List UInt8} (hlength : bytes.length = FileRecord.replyLen records)
    (front done : List UInt8) :
    (checkAll (recordFields records bytes) = .ok () →
        (takeRecords records).exec (.opened expectedLen (front ++ bytes) done : Frame capacity) =
          (.ok (fillRecords records bytes), .opened expectedLen front (bytes ++ done))) ∧
      ∀ e, checkAll (recordFields records bytes) = .error e →
        ∃ frame : Frame capacity,
          (takeRecords records).exec (.opened expectedLen (front ++ bytes) done) =
            (.error e, frame) := by
  induction records generalizing bytes front done with
  | nil =>
    obtain rfl := List.eq_nil_of_length_eq_zero hlength
    rw [List.append_nil]
    exact ⟨fun _ => rfl, fun e h => by simp [recordFields, checkAll] at h⟩
  | cons record records ih =>
    obtain ⟨fieldSize, reference, data, later, hdata, hlater, rfl⟩ := exists_part hlength
    have hunread : front ++ fieldSize :: reference :: (data ++ later) =
        front ++ [fieldSize] ++ [reference] ++ data ++ later := by simp
    -- the records behind this one are read first, so this one is part of their front
    obtain ⟨hok, herror⟩ := ih hlater (front ++ [fieldSize] ++ [reference] ++ data) done
    rw [recordFields_cons hdata, fillRecords_cons hdata, checkAll_append, hunread, takeRecords]
    cases hchecks : checkAll (recordFields records later) with
    | error e =>
      obtain ⟨frame, hexec⟩ := herror e hchecks
      rw [Codec.exec_bind_of_error hexec]
      refine ⟨fun h => by simp [Except.bind] at h, fun e' h => ⟨frame, ?_⟩⟩
      obtain rfl : e = e' := Except.error.inj h
      rfl
    | ok u =>
      rw [Codec.exec_bind_of_ok (hok hchecks),
        Codec.exec_bind_of_ok (Codec.exec_takeWords_opened _ _ _ hdata _),
        Codec.exec_bind_of_ok (Codec.exec_takeByte_opened _ _ _ _ _),
        Codec.exec_bind_of_ok (Codec.exec_takeByte_opened _ _ _ _ _),
        Codec.exec_check_bind, Codec.exec_check_bind]
      simp only [Except.bind, checkAll]
      cases checkField "reference" reference.toUInt32 fileReference.toUInt32 with
      | error e => simp
      | ok u =>
        cases checkField "field_size" fieldSize.toUInt32 (UInt32.ofNat (1 + 2 * record.size)) with
        | error e => simp
        | ok u => simp [FileRecord.withData]

/-! ### Reading a reply from the end -/

section Take

variable {capacity : Nat} {body : List UInt8}

/-- A body with a byte count is three bytes and what is counted. -/
theorem exists_header {n : Nat} (hlength : body.length + crcLen = 5 + n) :
    ∃ sender function count rest, rest.length = n ∧
      body = sender :: function :: count :: rest := by
  rw [crcLen] at hlength
  rcases body with _ | ⟨sender, _ | ⟨function, _ | ⟨count, rest⟩⟩⟩
  · simp only [List.length_nil] at hlength
    omega
  · simp only [List.length_cons, List.length_nil] at hlength
    omega
  · simp only [List.length_cons, List.length_nil] at hlength
    omega
  · simp only [List.length_cons] at hlength
    exact ⟨sender, function, count, rest, by omega, rfl⟩

/-- An echo is six bytes. -/
theorem exists_echo (hlength : body.length + crcLen = 8) :
    ∃ sender function firstHigh firstLow secondHigh secondLow,
      body = [sender, function, firstHigh, firstLow, secondHigh, secondLow] := by
  obtain ⟨sender, function, firstHigh, rest, hrest, rfl⟩ := exists_header (n := 3) hlength
  obtain ⟨firstLow, secondHigh, secondLow, rfl⟩ := List.length_eq_three.mp hrest
  exact ⟨sender, function, firstHigh, firstLow, secondHigh, secondLow, rfl⟩

section Steps

variable {α : Type} {countName functionName senderName : String} (expectedLen : Nat)
  (done : List UInt8)

/-- Three bytes that start a message are read from the last to the first. -/
theorem exec_takeHeader (sender function count : UInt8)
    (next : UInt8 → UInt8 → UInt8 → Codec capacity α) :
    (do
      let count ← Codec.takeByte countName
      let function ← Codec.takeByte functionName
      let sender ← Codec.takeByte senderName
      next count function sender).exec (.opened expectedLen [sender, function, count] done) =
        (next count function sender).exec
          (.opened expectedLen [] ([sender, function, count] ++ done)) := by
  have hunread : [sender, function, count] = [] ++ [sender] ++ [function] ++ [count] := rfl
  rw [hunread, Codec.exec_bind_of_ok (Codec.exec_takeByte_opened _ _ _ _ _),
    Codec.exec_bind_of_ok (Codec.exec_takeByte_opened _ _ _ _ _),
    Codec.exec_bind_of_ok (Codec.exec_takeByte_opened _ _ _ _ _)]
  rfl

/-- An echo is read from its last word to its device. -/
theorem exec_takeEcho {secondName firstName : String}
    (sender function firstHigh firstLow secondHigh secondLow : UInt8)
    (next : UInt16 → UInt16 → UInt8 → UInt8 → Codec capacity α) :
    (do
      let second ← Codec.takeWord secondName
      let first ← Codec.takeWord firstName
      let function ← Codec.takeByte functionName
      let sender ← Codec.takeByte senderName
      next second first function sender).exec
        (.opened expectedLen [sender, function, firstHigh, firstLow, secondHigh, secondLow] done) =
      (next (wordOfBytes secondHigh secondLow) (wordOfBytes firstHigh firstLow) function
        sender).exec
          (.opened expectedLen []
            ([sender, function, firstHigh, firstLow, secondHigh, secondLow] ++ done)) := by
  have hunread : [sender, function, firstHigh, firstLow, secondHigh, secondLow] =
      [] ++ [sender] ++ [function] ++ wordBytes (wordOfBytes firstHigh firstLow) ++
        wordBytes (wordOfBytes secondHigh secondLow) := by
    simp [wordBytes_wordOfBytes]
  rw [hunread, Codec.exec_bind_of_ok (Codec.exec_takeWord_opened _ _ _ _ _),
    Codec.exec_bind_of_ok (Codec.exec_takeWord_opened _ _ _ _ _),
    Codec.exec_bind_of_ok (Codec.exec_takeByte_opened _ _ _ _ _),
    Codec.exec_bind_of_ok (Codec.exec_takeByte_opened _ _ _ _ _)]
  simp

end Steps

/-- **A reply read from the end** of a body of the length that is due is the filled reply, if the
fields of the body pass. -/
theorem fst_exec_take (reply : Reply) (hlength : body.length + crcLen = reply.expectedLen)
    (expectedLen : Nat) (done : List UInt8) :
    (reply.take.exec (.opened expectedLen body done : Frame capacity)).1 =
      (checkAll (reply.fields body)).map fun _ => reply.fill body := by
  cases reply with
  | holding device words =>
    obtain ⟨sender, function, byteCount, data, hdata, rfl⟩ := exists_header hlength
    have hunread : sender :: function :: byteCount :: data =
        [sender, function, byteCount] ++ data := rfl
    rw [take, hunread, Codec.exec_bind_of_ok (Codec.exec_takeWords_opened _ _ _ hdata _),
      exec_takeHeader, ← hunread]
    simp only [Codec.fst_exec_check_bind, fields, map_checkAll_cons]
    rfl
  | single device register expected value =>
    obtain ⟨sender, function, offsetHigh, offsetLow, valueHigh, valueLow, rfl⟩ :=
      exists_echo hlength
    rw [take, exec_takeEcho]
    cases expected with
    | none =>
      simp only [Codec.fst_exec_check_bind, fields, Option.map_none, Option.toList_none,
        List.append_nil, map_checkAll_cons]
      rfl
    | some due =>
      simp only [Codec.fst_exec_check_bind, fields, Option.map_some, Option.toList_some,
        List.cons_append, List.nil_append, map_checkAll_cons]
      rfl
  | multiple device start count =>
    obtain ⟨sender, function, startHigh, startLow, countHigh, countLow, rfl⟩ :=
      exists_echo hlength
    rw [take, exec_takeEcho]
    simp only [Codec.fst_exec_check_bind, fields, map_checkAll_cons]
    rfl
  | file device records =>
    obtain ⟨sender, function, dataLen, bytes, hbytes, rfl⟩ := exists_header hlength
    have hunread : sender :: function :: dataLen :: bytes =
        [sender, function, dataLen] ++ bytes := rfl
    have hdue : (file device records).expectedLen - 5 = FileRecord.replyLen records :=
      Nat.add_sub_cancel_left 5 _
    obtain ⟨hok, herror⟩ :=
      exec_takeRecords expectedLen hbytes [sender, function, dataLen] done
    rw [take, fields, checkAll_append, hdue, hunread]
    cases hchecks : checkAll (recordFields records bytes) with
    | error e =>
      obtain ⟨frame, hexec⟩ := herror e hchecks
      rw [Codec.exec_bind_of_error hexec]
      rfl
    | ok u =>
      rw [Codec.exec_bind_of_ok (hok hchecks), exec_takeHeader, ← hunread, Except.bind]
      simp only [Codec.fst_exec_check_bind, Codec.exec_get_bind, map_checkAll_cons]
      rfl

end Take

/-! ### Decoding by fields -/

/-- **Decoding a sealed message** of the length that is due is checking the fields of its body. -/
theorem decode_sealed {reply : Reply} {body : List UInt8}
    (hlength : body.length + crcLen = reply.expectedLen)
    (hfit : reply.expectedLen ≤ maxFrameLen) :
    reply.decode (sealed body) = (checkAll (reply.fields body)).map fun _ => reply.fill body := by
  have hle : (sealed body).length ≤ maxFrameLen := by
    rw [length_sealed]
    simp only [crcLen] at hlength
    omega
  have hload : (Codec.load (sealed body) : Codec maxFrameLen Unit).exec
      { expectedLen := reply.expectedLen } =
        (.ok (), { expectedLen := reply.expectedLen, bytes := sealed body }) :=
    Codec.exec_load_eq_ok_iff.mpr ⟨hle, hle, rfl⟩
  have hvalidate : (Codec.validate : Codec maxFrameLen Unit).exec
      { expectedLen := reply.expectedLen, bytes := sealed body } =
        (.ok (), .opened reply.expectedLen body (crcTrailer (crc16 body))) :=
    Codec.exec_validate_eq_ok_iff.mpr ⟨body, rfl, hlength.symm, rfl⟩
  rw [decode, read, Codec.exec_bind_of_ok hload, Codec.exec_bind_of_ok hvalidate]
  exact fst_exec_take reply hlength _ _

/-- Nothing is accepted but sealed messages of the length that is due. -/
theorem exists_sealed_of_decode_eq_ok {reply filled : Reply} {message : List UInt8}
    (h : reply.decode message = .ok filled) :
    ∃ body, message = sealed body ∧ body.length + crcLen = reply.expectedLen ∧
      reply.expectedLen ≤ maxFrameLen := by
  rw [decode, read] at h
  -- a step that fails ends the reading
  rcases hload : (Codec.load message : Codec maxFrameLen Unit).exec
    { expectedLen := reply.expectedLen } with ⟨e | u, loaded⟩
  · rw [Codec.exec_bind_of_error hload] at h
    exact absurd h (by simp)
  · obtain ⟨hle, -, rfl⟩ := Codec.exec_load_eq_ok_iff.mp hload
    rw [Codec.exec_bind_of_ok hload] at h
    rcases hvalidate : (Codec.validate : Codec maxFrameLen Unit).exec
      { expectedLen := reply.expectedLen, bytes := message } with ⟨e | u, checked⟩
    · rw [Codec.exec_bind_of_error hvalidate] at h
      exact absurd h (by simp)
    · obtain ⟨body, hbody, hlength, -⟩ := Codec.exec_validate_eq_ok_iff.mp hvalidate
      simp only at hbody hlength
      refine ⟨body, hbody, hlength.symm, ?_⟩
      rw [hbody, length_sealed] at hle
      simp only [crcLen] at hlength
      omega

end Reply

end Modbus
