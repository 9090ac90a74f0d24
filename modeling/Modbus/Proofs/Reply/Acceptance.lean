import Modbus.Proofs.Reply.Fields

/-!
# What a reply accepts

`Reply.decode_eq_ok_iff` says which messages a reply accepts: the sealed bodies of those replies
that have the same cleared form and echo what is expected, if they fit a message at all; and such a
message fills the reply to just the one that it is the body of.

The two directions are kept apart, first for file records and then for replies. A body whose
fields pass is the body of what it fills (`partsBytes_fillRecords`, `body_fill`), and a body that
is laid out passes and fills back (`recordFields_partsBytes`, `fields_body`). In both a count
passes as the number it stands for only because it fits its byte, which is where the length of a
message comes in.
-/

namespace Modbus

/-- A byte holds a number that fits it exactly when it is that number as a byte. -/
theorem toUInt32_eq_ofNat_iff {byte : UInt8} {n : Nat} (hn : n < 256) :
    byte.toUInt32 = UInt32.ofNat n ↔ byte = UInt8.ofNat n := by
  rw [← UInt32.toNat_inj, ← UInt8.toNat_inj, UInt8.toNat_toUInt32,
    UInt32.toNat_ofNat_of_lt' (Nat.lt_trans hn (by decide)), UInt8.toNat_ofNat_of_lt' hn]

namespace Reply

/-! ### File records -/

/-- Filling in file records keeps their places and sizes. -/
theorem map_cleared_fillRecords {records : List FileRecord} {bytes : List UInt8}
    (hlength : bytes.length = FileRecord.replyLen records) :
    (fillRecords records bytes).map FileRecord.cleared = records.map FileRecord.cleared := by
  induction records generalizing bytes with
  | nil => rfl
  | cons record records ih =>
    obtain ⟨fieldSize, reference, data, later, hdata, hlater, rfl⟩ := exists_part hlength
    have hsize : (record.withData (wordsOfBytes data)).size = record.size :=
      length_wordsOfBytes hdata
    have hcleared : (record.withData (wordsOfBytes data)).cleared = record.cleared := by
      rw [FileRecord.cleared, FileRecord.cleared, hsize]
      rfl
    rw [fillRecords_cons hdata, List.map_cons, List.map_cons, ih hlater, hcleared]

/-- File records whose fields pass are laid out as the bytes that they are filled from. -/
theorem partsBytes_fillRecords {records : List FileRecord} {bytes : List UInt8}
    (hlength : bytes.length = FileRecord.replyLen records)
    (hsizes : ∀ record ∈ records, 1 + 2 * record.size < 256)
    (hpass : ∀ field ∈ recordFields records bytes, field.actual = field.expected) :
    FileRecord.partsBytes ((fillRecords records bytes).map FileRecord.data) = bytes := by
  induction records generalizing bytes with
  | nil =>
    obtain rfl := List.eq_nil_of_length_eq_zero hlength
    rfl
  | cons record records ih =>
    obtain ⟨fieldSize, reference, data, later, hdata, hlater, rfl⟩ := exists_part hlength
    rw [recordFields_cons hdata, List.forall_mem_append, List.forall_mem_cons,
      List.forall_mem_singleton] at hpass
    obtain ⟨hothers, hreference, hfieldSize⟩ := hpass
    have hsize := hsizes record List.mem_cons_self
    have hrest := ih hlater (fun record hmem => hsizes record (List.mem_cons_of_mem _ hmem)) hothers
    rw [fillRecords_cons hdata, List.map_cons, FileRecord.partsBytes_cons, hrest,
      FileRecord.withData, wordsBytes_wordsOfBytes hdata, length_wordsOfBytes hdata,
      ← UInt8.toUInt32_inj.mp hreference, ← (toUInt32_eq_ofNat_iff hsize).mp hfieldSize]

/-- The fields of file records that are laid out pass where records of these sizes are due, and
the records filled from them are these. -/
theorem recordFields_partsBytes {records filled : List FileRecord}
    (hcleared : filled.map FileRecord.cleared = records.map FileRecord.cleared)
    (hsizes : ∀ record ∈ records, 1 + 2 * record.size < 256) :
    (∀ field ∈ recordFields records (FileRecord.partsBytes (filled.map FileRecord.data)),
        field.actual = field.expected) ∧
      fillRecords records (FileRecord.partsBytes (filled.map FileRecord.data)) = filled := by
  induction records generalizing filled with
  | nil =>
    obtain rfl : filled = [] := by simpa using hcleared
    exact ⟨by simp [recordFields], rfl⟩
  | cons record records ih =>
    obtain ⟨first, rest, rfl, hfirst, hrest⟩ := List.map_eq_cons_iff.mp hcleared
    simp only [FileRecord.cleared, FileRecord.blank, FileRecord.mk.injEq] at hfirst
    obtain ⟨hfile, hrecord, hreplicate⟩ := hfirst
    have hsize : first.data.length = record.size := by
      simpa [FileRecord.size] using congrArg List.length hreplicate
    have hdata : (wordsBytes first.data).length = 2 * record.size := by
      rw [length_wordsBytes, hsize]
    obtain ⟨hothers, hfilled⟩ :=
      ih hrest fun record hmem => hsizes record (List.mem_cons_of_mem _ hmem)
    have hfits := (toUInt32_eq_ofNat_iff (hsizes record List.mem_cons_self)).mpr rfl
    rw [List.map_cons, FileRecord.partsBytes_cons, recordFields_cons hdata, fillRecords_cons hdata,
      hfilled, wordsOfBytes_wordsBytes, hsize]
    refine ⟨?_, ?_⟩
    · rw [List.forall_mem_append, List.forall_mem_cons, List.forall_mem_singleton]
      exact ⟨hothers, rfl, hfits⟩
    · rw [FileRecord.withData, ← hfile, ← hrecord]

/-! ### Replies -/

section Body

variable {reply : Reply} {body : List UInt8}

/-- Filling in a reply keeps what is waited for. -/
theorem cleared_fill (hlength : body.length + crcLen = reply.expectedLen) :
    (reply.fill body).cleared = reply.cleared := by
  cases reply with
  | holding device words =>
    obtain ⟨sender, function, byteCount, data, hdata, rfl⟩ := exists_header hlength
    exact cleared_eq_cleared_holding.mpr ⟨wordsOfBytes data, length_wordsOfBytes hdata, rfl⟩
  | single device register expected value => rfl
  | multiple device start count => rfl
  | file device records =>
    obtain ⟨sender, function, dataLen, bytes, hbytes, rfl⟩ := exists_header hlength
    exact congrArg (file device) (map_cleared_fillRecords hbytes)

/-- **A body whose fields pass** is the body of the reply that it fills, and echoes what is
expected. -/
theorem body_fill (hlength : body.length + crcLen = reply.expectedLen)
    (hfit : reply.expectedLen ≤ maxFrameLen)
    (hpass : ∀ field ∈ reply.fields body, field.actual = field.expected) :
    (reply.fill body).body = body ∧ (reply.fill body).EchoesExpected := by
  cases reply with
  | holding device words =>
    have hcount : 2 * words.length < 256 := count_lt_of_expectedLen_le hfit
    obtain ⟨sender, function, byteCount, data, hdata, rfl⟩ := exists_header hlength
    rw [fields, List.forall_mem_cons, List.forall_mem_cons, List.forall_mem_singleton] at hpass
    obtain ⟨hfunction, hbyteCount, hsender⟩ := hpass
    refine ⟨?_, trivial⟩
    show device :: readHoldingCode :: UInt8.ofNat (2 * (wordsOfBytes data).length) ::
      wordsBytes (wordsOfBytes data) = _
    rw [length_wordsOfBytes hdata, wordsBytes_wordsOfBytes hdata,
      ← (toUInt32_eq_ofNat_iff hcount).mp hbyteCount, ← UInt8.toUInt32_inj.mp hfunction,
      ← UInt8.toUInt32_inj.mp hsender]
  | single device register expected value =>
    obtain ⟨sender, function, offsetHigh, offsetLow, valueHigh, valueLow, rfl⟩ :=
      exists_echo hlength
    rw [fields, List.forall_mem_append, List.forall_mem_cons, List.forall_mem_cons,
      List.forall_mem_singleton] at hpass
    obtain ⟨⟨hsender, hfunction, hoffset⟩, hvalue⟩ := hpass
    refine ⟨?_, ?_⟩
    · show device :: writeSingleCode ::
        (wordBytes register ++ wordBytes (wordOfBytes valueHigh valueLow)) = _
      rw [← UInt8.toUInt32_inj.mp hsender, ← UInt8.toUInt32_inj.mp hfunction,
        ← UInt16.toUInt32_inj.mp hoffset, wordBytes_wordOfBytes, wordBytes_wordOfBytes]
      rfl
    · intro due hdue
      obtain rfl := Option.mem_def.mp hdue
      rw [Option.map_some, Option.toList_some, List.forall_mem_singleton] at hvalue
      exact UInt16.toUInt32_inj.mp hvalue
  | multiple device start count =>
    obtain ⟨sender, function, startHigh, startLow, countHigh, countLow, rfl⟩ :=
      exists_echo hlength
    rw [fields, List.forall_mem_cons, List.forall_mem_cons, List.forall_mem_cons,
      List.forall_mem_singleton] at hpass
    obtain ⟨hsender, hfunction, hstart, hcount⟩ := hpass
    refine ⟨?_, trivial⟩
    show device :: writeMultipleCode :: (wordBytes start ++ wordBytes count) = _
    rw [← UInt8.toUInt32_inj.mp hsender, ← UInt8.toUInt32_inj.mp hfunction,
      ← UInt16.toUInt32_inj.mp hstart, ← UInt16.toUInt32_inj.mp hcount, wordBytes_wordOfBytes,
      wordBytes_wordOfBytes]
    rfl
  | file device records =>
    have hcount : FileRecord.replyLen records < 256 := count_lt_of_expectedLen_le hfit
    obtain ⟨sender, function, dataLen, bytes, hbytes, rfl⟩ := exists_header hlength
    rw [fields, List.forall_mem_append, List.forall_mem_cons, List.forall_mem_cons,
      List.forall_mem_singleton] at hpass
    obtain ⟨hrecords, hdataLen, hfunction, hsender⟩ := hpass
    have hsizes : ∀ record ∈ records, 1 + 2 * record.size < 256 :=
      fun record hmem => size_lt_of_expectedLen_le hfit hmem
    have hparts := partsBytes_fillRecords hbytes hsizes hrecords
    have hsame : FileRecord.replyLen (fillRecords records bytes) = FileRecord.replyLen records := by
      rw [← FileRecord.length_partsBytes, hparts, hbytes]
    refine ⟨?_, trivial⟩
    show device :: readRecordsCode ::
      UInt8.ofNat (FileRecord.replyLen (fillRecords records bytes)) ::
        FileRecord.partsBytes ((fillRecords records bytes).map FileRecord.data) = _
    rw [hsame, hparts, ← (toUInt32_eq_ofNat_iff hcount).mp hdataLen,
      ← UInt8.toUInt32_inj.mp hfunction, ← UInt8.toUInt32_inj.mp hsender]

end Body

/-- **A reply that is laid out passes** where its like is waited for, and is what its body fills. -/
theorem fields_body {reply filled : Reply} (hcleared : filled.cleared = reply.cleared)
    (hechoes : filled.EchoesExpected) (hfit : reply.expectedLen ≤ maxFrameLen) :
    (∀ field ∈ reply.fields filled.body, field.actual = field.expected) ∧
      reply.fill filled.body = filled := by
  cases reply with
  | holding device words =>
    obtain ⟨received, hreceived, rfl⟩ := cleared_eq_cleared_holding.mp hcleared
    have hcount : 2 * words.length < 256 := count_lt_of_expectedLen_le hfit
    have hbyteCount := (toUInt32_eq_ofNat_iff hcount).mpr rfl
    rw [body, hreceived, fields, List.forall_mem_cons, List.forall_mem_cons,
      List.forall_mem_singleton]
    refine ⟨⟨rfl, hbyteCount, rfl⟩, ?_⟩
    show holding device (wordsOfBytes (wordsBytes received)) = holding device received
    rw [wordsOfBytes_wordsBytes]
  | single device register expected value =>
    obtain ⟨received, rfl⟩ := cleared_eq_cleared_single.mp hcleared
    have hwords : wordsOfBytes (wordBytes received) = [received] :=
      wordsOfBytes_wordsBytes [received]
    refine ⟨?_, ?_⟩
    · show ∀ field ∈ (single device register expected value).fields
        [device, writeSingleCode, _, _, _, _], field.actual = field.expected
      rw [fields, List.forall_mem_append, List.forall_mem_cons, List.forall_mem_cons,
        List.forall_mem_singleton, wordOfBytes_wordBytes, wordOfBytes_wordBytes]
      refine ⟨⟨rfl, rfl, rfl⟩, ?_⟩
      cases expected with
      | none => simp
      | some due =>
        rw [Option.map_some, Option.toList_some, List.forall_mem_singleton, hechoes due rfl]
    · show single device register expected ((wordsOfBytes (wordBytes received)).headD 0) = _
      rw [hwords]
      rfl
  | multiple device start count =>
    obtain rfl := cleared_eq_cleared_multiple.mp hcleared
    refine ⟨?_, rfl⟩
    show ∀ field ∈ (multiple device start count).fields
      [device, writeMultipleCode, _, _, _, _], field.actual = field.expected
    rw [fields, List.forall_mem_cons, List.forall_mem_cons, List.forall_mem_cons,
      List.forall_mem_singleton, wordOfBytes_wordBytes, wordOfBytes_wordBytes]
    exact ⟨rfl, rfl, rfl, rfl⟩
  | file device records =>
    obtain ⟨data, hdata, rfl⟩ := cleared_eq_cleared_file.mp hcleared
    have hrecords := FileRecord.map_cleared_eq_iff.mpr ⟨data, hdata, rfl⟩
    have hcount : FileRecord.replyLen records < 256 := count_lt_of_expectedLen_le hfit
    have hsame : FileRecord.replyLen (List.zipWith FileRecord.withData records data) =
        FileRecord.replyLen records := Nat.add_left_cancel (expectedLen_congr hcleared)
    have hdataLen := (toUInt32_eq_ofNat_iff hcount).mpr rfl
    obtain ⟨hpass, hfill⟩ := recordFields_partsBytes hrecords fun record hmem =>
      size_lt_of_expectedLen_le hfit hmem
    rw [body, hsame, fields, List.forall_mem_append, List.forall_mem_cons, List.forall_mem_cons,
      List.forall_mem_singleton]
    refine ⟨⟨hpass, hdataLen, rfl, rfl⟩, ?_⟩
    exact congrArg (file device) hfill

/-- **What a reply accepts**: exactly the sealed bodies of its filled forms that echo what is
expected, and each of them fills it as it says. -/
theorem decode_eq_ok_iff {reply filled : Reply} {message : List UInt8} :
    reply.decode message = .ok filled ↔
      filled.cleared = reply.cleared ∧ filled.EchoesExpected ∧
        reply.expectedLen ≤ maxFrameLen ∧ message = sealed filled.body := by
  constructor
  · intro h
    obtain ⟨body, rfl, hlength, hfit⟩ := exists_sealed_of_decode_eq_ok h
    rw [decode_sealed hlength hfit] at h
    cases hchecks : checkAll (reply.fields body) with
    | error e =>
      rw [hchecks] at h
      exact absurd h (by simp [Except.map])
    | ok u =>
      obtain ⟨hbody, hechoes⟩ := body_fill hlength hfit (checkAll_eq_ok_iff.mp hchecks)
      rw [hchecks] at h
      obtain rfl : reply.fill body = filled := Except.ok.inj h
      exact ⟨cleared_fill hlength, hechoes, hfit, by rw [hbody]⟩
  · rintro ⟨hcleared, hechoes, hfit, rfl⟩
    have hlength : filled.body.length + crcLen = reply.expectedLen := by
      rw [length_body, expectedLen_congr hcleared]
    obtain ⟨hpass, hfill⟩ := fields_body hcleared hechoes hfit
    rw [decode_sealed hlength hfit, checkAll_eq_ok_iff.mpr hpass, hfill]
    rfl

end Reply

end Modbus
