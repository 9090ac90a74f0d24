import Mathlib.Algebra.GroupWithZero.Nat
import Mathlib.Data.List.Basic
import Modbus.Receiver

/-!
# The layout of a reply

`Reply.body` lays a filled reply out as a device sends it, up to the check: device, function and
what the command asked for. Its length is the one that is due (`length_body`).

Two things are told apart by it. `Reply.cleared` forgets what was received and keeps what is waited
for, so that `filled.cleared = reply.cleared` says that `filled` is `reply` with contents of the
same widths; the four lemmas `cleared_eq_cleared_*` spell this out. `Reply.wireForm` forgets what
does not travel, the expected word of an echo and the places of file records, and keeps the rest:
replies that fit a message and have the same body have the same wire form
(`wireForm_eq_of_body_eq`). The parts of file records are delimited by their sizes alone, so this
needs sizes that fit a byte (`partsBytes_inj`).
-/

namespace Modbus

namespace FileRecord

/-! ### File records -/

/-- The record with its words still to be read. -/
def cleared (record : FileRecord) : FileRecord :=
  blank record.file record.record record.size

/-- The record with the words that were read for it. -/
def withData (record : FileRecord) (data : List UInt16) : FileRecord :=
  { record with data }

/-- The parts of a reply that carry runs of words: for each its size, the reference, the words. -/
def partsBytes (parts : List (List UInt16)) : List UInt8 :=
  parts.flatMap fun words =>
    UInt8.ofNat (1 + 2 * words.length) :: fileReference :: wordsBytes words

@[simp] theorem size_blank (file record : UInt16) (words : Nat) :
    (blank file record words).size = words := by
  simp [blank, size]

@[simp] theorem size_cleared (record : FileRecord) : record.cleared.size = record.size := by
  simp [cleared]

@[simp] theorem partsBytes_nil : partsBytes [] = [] := rfl

@[simp] theorem partsBytes_cons (words : List UInt16) (parts : List (List UInt16)) :
    partsBytes (words :: parts) =
      UInt8.ofNat (1 + 2 * words.length) :: fileReference ::
        (wordsBytes words ++ partsBytes parts) := rfl

/-- The length of a reply counts two bytes and two more for each word of every record. -/
theorem replyLen_eq_sum (records : List FileRecord) :
    replyLen records = (records.map fun record => 2 + 2 * record.size).sum := by
  induction records with
  | nil => rfl
  | cons record records ih => rw [replyLen, ih, List.map_cons, List.sum_cons]

@[simp] theorem length_partsBytes (records : List FileRecord) :
    (partsBytes (records.map FileRecord.data)).length = replyLen records := by
  induction records with
  | nil => rfl
  | cons record records ih =>
    rw [List.map_cons, partsBytes_cons, replyLen, ← ih]
    simp only [List.length_cons, List.length_append, length_wordsBytes, size]
    omega

/-- Every record takes its part of the length of a reply. -/
theorem size_le_replyLen {records : List FileRecord} {record : FileRecord}
    (hmem : record ∈ records) : 2 + 2 * record.size ≤ replyLen records := by
  induction hmem with
  | head records =>
    rw [replyLen]
    omega
  | tail other _ ih =>
    rw [replyLen]
    omega

/-- The length of a reply is a matter of the sizes of the records. -/
theorem replyLen_congr {records others : List FileRecord}
    (h : records.map size = others.map size) : replyLen records = replyLen others := by
  have hsum : ∀ records : List FileRecord,
      replyLen records = ((records.map size).map fun words => 2 + 2 * words).sum := by
    intro records
    rw [replyLen_eq_sum, List.map_map]
    rfl
  rw [hsum, hsum, h]

/-- A size that fits a byte is read back from it. -/
private theorem ofNat_size_inj {m n : Nat} (hm : 1 + 2 * m < 256) (hn : 1 + 2 * n < 256)
    (h : UInt8.ofNat (1 + 2 * m) = UInt8.ofNat (1 + 2 * n)) : m = n := by
  have htoNat := congrArg UInt8.toNat h
  rw [UInt8.toNat_ofNat_of_lt' hm, UInt8.toNat_ofNat_of_lt' hn] at htoNat
  omega

/-- **Parts read back in one way only**, if every size fits its byte. -/
theorem partsBytes_inj {parts others : List (List UInt16)}
    (hparts : ∀ words ∈ parts, 1 + 2 * words.length < 256)
    (hothers : ∀ words ∈ others, 1 + 2 * words.length < 256)
    (h : partsBytes parts = partsBytes others) : parts = others := by
  induction parts generalizing others with
  | nil =>
    cases others with
    | nil => rfl
    | cons other others => simp at h
  | cons words parts ih =>
    cases others with
    | nil => simp at h
    | cons other others =>
      simp only [partsBytes_cons, List.cons.injEq, true_and] at h
      obtain ⟨hsize, hrest⟩ := h
      -- the size comes first and says where the words end
      have hlength : words.length = other.length :=
        ofNat_size_inj (hparts words List.mem_cons_self) (hothers other List.mem_cons_self) hsize
      obtain ⟨hwords, htail⟩ := List.append_inj hrest (by simp [hlength])
      have htails : parts = others :=
        ih (fun words hmem => hparts words (List.mem_cons_of_mem _ hmem))
          (fun words hmem => hothers words (List.mem_cons_of_mem _ hmem)) htail
      rw [wordsBytes_inj.mp hwords, htails]

/-- Records with the same cleared form differ in their words, not in how many these are. -/
theorem map_cleared_eq_iff {records filled : List FileRecord} :
    filled.map cleared = records.map cleared ↔
      ∃ data : List (List UInt16), data.map List.length = records.map size ∧
        filled = List.zipWith withData records data := by
  induction records generalizing filled with
  | nil =>
    constructor
    · intro h
      exact ⟨[], rfl, by simpa using h⟩
    · rintro ⟨data, -, rfl⟩
      rfl
  | cons record records ih =>
    constructor
    · intro h
      obtain ⟨first, rest, rfl, hfirst, hrest⟩ := List.map_eq_cons_iff.mp h
      obtain ⟨data, hdata, rfl⟩ := ih.mp hrest
      have hsize : first.size = record.size := by
        rw [← size_cleared first, hfirst, size_cleared]
      refine ⟨first.data :: data, ?_, ?_⟩
      · rw [List.map_cons, List.map_cons, hdata, ← hsize]
        rfl
      · have hplace : first.file = record.file ∧ first.record = record.record := by
          simp only [cleared, blank, FileRecord.mk.injEq] at hfirst
          exact ⟨hfirst.1, hfirst.2.1⟩
        rw [List.zipWith_cons_cons, withData, ← hplace.1, ← hplace.2]
    · rintro ⟨data, hdata, rfl⟩
      cases data with
      | nil => simp at hdata
      | cons words data =>
        simp only [List.map_cons, List.cons.injEq] at hdata
        have hrest := ih.mpr ⟨data, hdata.2, rfl⟩
        rw [List.zipWith_cons_cons, List.map_cons, List.map_cons, hrest]
        simp [cleared, withData, size, hdata.1]

/-- Filling in words leaves just these words. -/
theorem map_data_zipWith {records : List FileRecord} {data : List (List UInt16)}
    (h : data.map List.length = records.map size) :
    (List.zipWith withData records data).map FileRecord.data = data := by
  have hlength : data.length = records.length := by simpa using congrArg List.length h
  calc (List.zipWith withData records data).map FileRecord.data
      = (records.zip data).map Prod.snd := by
        rw [List.zip_eq_zipWith, List.map_zipWith, List.map_zipWith]
        rfl
    _ = data := List.map_snd_zip (Nat.le_of_eq hlength)

end FileRecord

namespace Reply

/-! ### The body of a reply -/

/-- What stands before the check when a device sends the reply. -/
def body : Reply → List UInt8
  | holding device words =>
    device :: readHoldingCode :: UInt8.ofNat (2 * words.length) :: wordsBytes words
  | single device register _ value =>
    device :: writeSingleCode :: (wordBytes register ++ wordBytes value)
  | multiple device start count =>
    device :: writeMultipleCode :: (wordBytes start ++ wordBytes count)
  | file device records =>
    device :: readRecordsCode :: UInt8.ofNat (FileRecord.replyLen records) ::
      FileRecord.partsBytes (records.map FileRecord.data)

/-- A reply that is laid out has the length that is due. -/
theorem length_body (reply : Reply) : reply.body.length + crcLen = reply.expectedLen := by
  cases reply with
  | holding device words =>
    simp only [body, expectedLen, crcLen, List.length_cons, length_wordsBytes]
    omega
  | single device register expected value => rfl
  | multiple device start count => rfl
  | file device records =>
    simp only [body, expectedLen, crcLen, List.length_cons, FileRecord.length_partsBytes]
    omega

/-! ### What is waited for -/

/-- The reply with everything still to be received. -/
def cleared : Reply → Reply
  | holding device words => holding device (List.replicate words.length 0)
  | single device register expected _ => single device register expected 0
  | multiple device start count => multiple device start count
  | file device records => file device (records.map FileRecord.cleared)

/-- A reply that echoes a word echoes the one that is expected, if one is. -/
def EchoesExpected : Reply → Prop
  | single _ _ expected value => ∀ due ∈ expected, value = due
  | _ => True

@[simp] theorem expectedLen_cleared (reply : Reply) :
    reply.cleared.expectedLen = reply.expectedLen := by
  cases reply with
  | holding device words => simp [cleared, expectedLen]
  | single device register expected value => rfl
  | multiple device start count => rfl
  | file device records =>
    have hsizes : (records.map FileRecord.cleared).map FileRecord.size =
        records.map FileRecord.size := by simp
    simp only [cleared, expectedLen]
    rw [FileRecord.replyLen_congr hsizes]

/-- What is waited for decides about the length that is due. -/
theorem expectedLen_congr {first second : Reply} (h : first.cleared = second.cleared) :
    first.expectedLen = second.expectedLen := by
  rw [← expectedLen_cleared first, h, expectedLen_cleared]

theorem cleared_eq_cleared_holding {reply : Reply} {device : UInt8} {words : List UInt16} :
    reply.cleared = (holding device words).cleared ↔
      ∃ received : List UInt16, received.length = words.length ∧
        reply = holding device received := by
  constructor
  · intro h
    cases reply with
    | holding sender received =>
      simp only [cleared, holding.injEq] at h
      obtain ⟨rfl, hwords⟩ := h
      exact ⟨received, by simpa using congrArg List.length hwords, rfl⟩
    | single | multiple | file => simp [cleared] at h
  · rintro ⟨received, hlength, rfl⟩
    rw [cleared, cleared, hlength]

theorem cleared_eq_cleared_single {reply : Reply} {device : UInt8} {register : UInt16}
    {expected : Option UInt16} {value : UInt16} :
    reply.cleared = (single device register expected value).cleared ↔
      ∃ received : UInt16, reply = single device register expected received := by
  constructor
  · intro h
    cases reply with
    | single sender offset due received =>
      simp only [cleared, single.injEq, and_true] at h
      obtain ⟨rfl, rfl, rfl⟩ := h
      exact ⟨received, rfl⟩
    | holding | multiple | file => simp [cleared] at h
  · rintro ⟨received, rfl⟩
    rfl

theorem cleared_eq_cleared_multiple {reply : Reply} {device : UInt8} {start count : UInt16} :
    reply.cleared = (multiple device start count).cleared ↔
      reply = multiple device start count := by
  cases reply with
  | multiple sender first written => rfl
  | holding | single | file => simp [cleared]

theorem cleared_eq_cleared_file {reply : Reply} {device : UInt8} {records : List FileRecord} :
    reply.cleared = (file device records).cleared ↔
      ∃ data : List (List UInt16), data.map List.length = records.map FileRecord.size ∧
        reply = file device (List.zipWith FileRecord.withData records data) := by
  constructor
  · intro h
    cases reply with
    | file sender filled =>
      simp only [cleared, file.injEq] at h
      obtain ⟨rfl, hfilled⟩ := h
      obtain ⟨data, hdata, rfl⟩ := FileRecord.map_cleared_eq_iff.mp hfilled
      exact ⟨data, hdata, rfl⟩
    | holding | single | multiple => simp [cleared] at h
  · rintro ⟨data, hdata, rfl⟩
    rw [cleared, cleared, FileRecord.map_cleared_eq_iff.mpr ⟨data, hdata, rfl⟩]

/-! ### What travels -/

/-- The reply without what does not travel: whether its echo is checked, and the places of its
file records. -/
def wireForm : Reply → Reply
  | single device register _ value => single device register none value
  | file device records =>
    file device ((records.map FileRecord.data).map fun data => { file := 0, record := 0, data })
  | reply => reply

/-- What is counted in a reply that fits a message fits the byte that counts it. -/
theorem count_lt_of_expectedLen_le {n : Nat} (hfit : 5 + n ≤ maxFrameLen) : n < 256 := by
  rw [maxFrameLen] at hfit
  omega

/-- A record of a reply that fits a message has a size that fits a byte. -/
theorem size_lt_of_expectedLen_le {device : UInt8} {records : List FileRecord}
    (hfit : (file device records).expectedLen ≤ maxFrameLen) {record : FileRecord}
    (hmem : record ∈ records) : 1 + 2 * record.size < 256 := by
  have hle := FileRecord.size_le_replyLen hmem
  have hlt : FileRecord.replyLen records < 256 := count_lt_of_expectedLen_le hfit
  omega

/-- **A body reads in one way only**: replies that fit a message and are sent alike are the same in
all that travels. -/
theorem wireForm_eq_of_body_eq {first second : Reply} (hfirst : first.expectedLen ≤ maxFrameLen)
    (hsecond : second.expectedLen ≤ maxFrameLen) (h : first.body = second.body) :
    first.wireForm = second.wireForm := by
  cases first <;> cases second
  case holding.holding device words sender received =>
    simp only [body, List.cons.injEq, true_and] at h
    obtain ⟨rfl, -, hwords⟩ := h
    rw [wordsBytes_inj.mp hwords]
  case single.single device register expected value sender offset due received =>
    simp only [body, List.cons.injEq, true_and] at h
    obtain ⟨rfl, hwords⟩ := h
    have hboth : [register, value] = [offset, received] :=
      wordsBytes_inj.mp (by simpa using hwords)
    simp only [List.cons.injEq, and_true] at hboth
    rw [wireForm, wireForm, hboth.1, hboth.2]
  case multiple.multiple device start count sender first written =>
    simp only [body, List.cons.injEq, true_and] at h
    obtain ⟨rfl, hwords⟩ := h
    have hboth : [start, count] = [first, written] :=
      wordsBytes_inj.mp (by simpa using hwords)
    simp only [List.cons.injEq, and_true] at hboth
    rw [hboth.1, hboth.2]
  case file.file device records sender others =>
    simp only [body, List.cons.injEq, true_and] at h
    obtain ⟨rfl, -, hparts⟩ := h
    have hdata : records.map FileRecord.data = others.map FileRecord.data := by
      refine FileRecord.partsBytes_inj ?_ ?_ hparts
      · intro words hmem
        obtain ⟨record, hrecord, rfl⟩ := List.mem_map.mp hmem
        exact size_lt_of_expectedLen_le hfirst hrecord
      · intro words hmem
        obtain ⟨record, hrecord, rfl⟩ := List.mem_map.mp hmem
        exact size_lt_of_expectedLen_le hsecond hrecord
    rw [wireForm, wireForm, hdata]
  -- bodies of different kinds differ in the function
  all_goals exact absurd (List.cons.inj (List.cons.inj h).2).1 (by decide)

end Reply

end Modbus
