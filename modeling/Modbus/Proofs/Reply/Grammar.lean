import Modbus.Proofs.Reply.Acceptance

/-!
# The grammar of the replies

When a reply can be made from a command, and which bytes it then accepts, spelled out for each
kind. A read of registers is answered by their number in bytes and their words, the write of one
register and a bulk write by an echo (`register_replies_accept_exactly`); a read of file records by
the length of all parts and, part by part, a size, the reference and words
(`ofReadRecords_accepts_exactly`). Every message is sealed, its check standing low byte first.

Words are asked for by number, so a count that no message can carry is refused when the reply is
made (`ofReadHolding_eq_ok_iff`, `ofReadRecords_eq_ok_iff`), and all counts that are left fit the
single bytes in which they travel.
-/

namespace Modbus

namespace Reply

/-! ### Making a reply -/

theorem fitting_eq_ok_iff {reply fitted : Reply} :
    reply.fitting = .ok fitted ↔ reply.expectedLen ≤ maxFrameLen ∧ fitted = reply := by
  rw [fitting]
  split
  · next hlong =>
    have hnot : ¬ reply.expectedLen ≤ maxFrameLen := by omega
    simp [hnot]
  · next hshort =>
    have hle : reply.expectedLen ≤ maxFrameLen := by omega
    simp [hle, eq_comm]

/-- Between 1 and 125 registers can be waited for. -/
theorem ofReadHolding_eq_ok_iff {device : UInt8} {count : UInt16} {reply : Reply} :
    ofReadHolding device count = .ok reply ↔
      1 ≤ count.toNat ∧ count.toNat ≤ 125 ∧
        reply = holding device (List.replicate count.toNat 0) := by
  rw [ofReadHolding]
  split
  · next hzero => simp [hzero]
  · next hne =>
    have hpos : 1 ≤ count.toNat := by
      rw [Nat.one_le_iff_ne_zero]
      exact fun h => hne (UInt16.toNat_inj.mp h)
    rw [fitting_eq_ok_iff, expectedLen, List.length_replicate, maxFrameLen]
    constructor
    · rintro ⟨hfit, rfl⟩
      exact ⟨hpos, by omega, rfl⟩
    · rintro ⟨-, hle, rfl⟩
      exact ⟨by omega, rfl⟩

/-- File records can be waited for if there are any and their parts fit a message. -/
theorem ofReadRecords_eq_ok_iff {device : UInt8} {records : List FileRecord} {reply : Reply} :
    ofReadRecords device records = .ok reply ↔
      records ≠ [] ∧ (file device records).expectedLen ≤ maxFrameLen ∧
        reply = file device records := by
  rw [ofReadRecords]
  split
  · next hempty => simp [List.isEmpty_iff.mp hempty]
  · next hne =>
    have hrecords : records ≠ [] := by simpa using hne
    rw [fitting_eq_ok_iff]
    simp [hrecords]

/-! ### Replies of registers -/

/-- **What is accepted of registers.** A reply to a read can be made for 1 to 125 registers and
takes their number in bytes and their words; the reply to the write of one register takes the echo
of the register with any word, or with the expected one; the reply to a bulk write takes the echo
of the first register and the count. -/
theorem register_replies_accept_exactly (device : UInt8) :
    (∀ count : UInt16,
      ((∃ reply, ofReadHolding device count = .ok reply) ↔
          1 ≤ count.toNat ∧ count.toNat ≤ 125) ∧
        ∀ reply, ofReadHolding device count = .ok reply → ∀ message filled,
          reply.decode message = .ok filled ↔
            ∃ words : List UInt16, filled = .holding device words ∧
              words.length = count.toNat ∧
                message =
                  sealed ([device, 0x03, UInt8.ofNat (2 * count.toNat)] ++ wordsBytes words)) ∧
      (∀ register expected message filled,
        (ofWriteSingle device register expected).decode message = .ok filled ↔
          ∃ value : UInt16, filled = .single device register expected value ∧
            (∀ due, expected = some due → value = due) ∧
              message = sealed ([device, 0x06] ++ wordBytes register ++ wordBytes value)) ∧
        ∀ start count message filled,
          (ofWriteMultiple device start count).decode message = .ok filled ↔
            filled = .multiple device start count ∧
              message = sealed ([device, 0x10] ++ wordBytes start ++ wordBytes count) := by
  refine ⟨fun count => ⟨?_, ?_⟩, ?_, ?_⟩
  · constructor
    · rintro ⟨reply, hreply⟩
      obtain ⟨hpos, hle, -⟩ := ofReadHolding_eq_ok_iff.mp hreply
      exact ⟨hpos, hle⟩
    · rintro ⟨hpos, hle⟩
      exact ⟨_, ofReadHolding_eq_ok_iff.mpr ⟨hpos, hle, rfl⟩⟩
  · intro reply hreply message filled
    obtain ⟨-, hle, rfl⟩ := ofReadHolding_eq_ok_iff.mp hreply
    have hfit : (holding device (List.replicate count.toNat 0)).expectedLen ≤ maxFrameLen := by
      rw [expectedLen, List.length_replicate, maxFrameLen]
      omega
    rw [decode_eq_ok_iff, cleared_eq_cleared_holding, List.length_replicate]
    constructor
    · rintro ⟨⟨words, hwords, rfl⟩, -, -, rfl⟩
      exact ⟨words, rfl, hwords, by rw [body, hwords]; rfl⟩
    · rintro ⟨words, rfl, hwords, rfl⟩
      exact ⟨⟨words, hwords, rfl⟩, trivial, hfit, by rw [body, hwords]; rfl⟩
  · intro register expected message filled
    rw [ofWriteSingle, decode_eq_ok_iff, cleared_eq_cleared_single]
    constructor
    · rintro ⟨⟨value, rfl⟩, hechoes, -, rfl⟩
      exact ⟨value, rfl, hechoes, rfl⟩
    · rintro ⟨value, rfl, hechoes, rfl⟩
      exact ⟨⟨value, rfl⟩, hechoes, (by decide : 8 ≤ maxFrameLen), rfl⟩
  · intro start count message filled
    rw [ofWriteMultiple, decode_eq_ok_iff, cleared_eq_cleared_multiple]
    constructor
    · rintro ⟨rfl, -, -, rfl⟩
      exact ⟨rfl, rfl⟩
    · rintro ⟨rfl, rfl⟩
      exact ⟨rfl, trivial, (by decide : 8 ≤ maxFrameLen), rfl⟩

/-- Three registers are waited for and received. -/
theorem register_replies_accept_three :
    ofReadHolding 0x11 3 = .ok (holding 0x11 [0, 0, 0]) ∧
      (holding 0x11 [0, 0, 0]).decode
          [0x11, 0x03, 0x06, 0xAE, 0x41, 0x56, 0x52, 0x43, 0x40, 0x49, 0xAD] =
        .ok (holding 0x11 [0xAE41, 0x5652, 0x4340]) := by
  refine ⟨rfl, ?_⟩
  have h := (register_replies_accept_exactly 0x11).1 3
  exact (h.2 _ rfl _ _).mpr ⟨[0xAE41, 0x5652, 0x4340], rfl, rfl, by decide +kernel⟩

/-! ### Replies of file records -/

/-- **What is accepted of file records.** A reply to a read of file records can be made if their
parts fit a message, and takes the length of the parts and, in the order of the records, for each
its size, the reference and as many words as it asks for. The words become those of the records,
whose places stay, and no count is cut short by the byte in which it travels. -/
theorem ofReadRecords_accepts_exactly (device : UInt8) (records : List FileRecord)
    (hrecords : records ≠ []) :
    let dataLen := (records.map fun record => 2 + 2 * record.size).sum
    ((∃ reply, ofReadRecords device records = .ok reply) ↔ 5 + dataLen ≤ 256) ∧
      ∀ reply, ofReadRecords device records = .ok reply →
        reply.expectedLen = 5 + dataLen ∧
          (UInt8.ofNat dataLen).toNat = dataLen ∧
          (∀ record ∈ records,
            (UInt8.ofNat (1 + 2 * record.size)).toNat = 1 + 2 * record.size) ∧
          ∀ message filled,
            reply.decode message = .ok filled ↔
              ∃ data : List (List UInt16),
                data.map List.length = records.map FileRecord.size ∧
                  message =
                    sealed ([device, 0x14, UInt8.ofNat dataLen] ++
                      data.flatMap fun words =>
                        [UInt8.ofNat (1 + 2 * words.length), 0x06] ++ wordsBytes words) ∧
                    filled = .file device (List.zipWith FileRecord.withData records data) := by
  intro dataLen
  have hsum : (file device records).expectedLen = 5 + dataLen := by
    rw [expectedLen, FileRecord.replyLen_eq_sum]
  refine ⟨?_, ?_⟩
  · constructor
    · rintro ⟨reply, hreply⟩
      obtain ⟨-, hfit, -⟩ := ofReadRecords_eq_ok_iff.mp hreply
      rwa [hsum] at hfit
    · intro hfit
      exact ⟨_, ofReadRecords_eq_ok_iff.mpr ⟨hrecords, by rwa [hsum], rfl⟩⟩
  · intro reply hreply
    obtain ⟨-, hfit, rfl⟩ := ofReadRecords_eq_ok_iff.mp hreply
    have hdataLen : dataLen < 256 := count_lt_of_expectedLen_le (hsum ▸ hfit)
    refine ⟨hsum, UInt8.toNat_ofNat_of_lt' hdataLen, ?_, ?_⟩
    · intro record hmem
      exact UInt8.toNat_ofNat_of_lt' (size_lt_of_expectedLen_le hfit hmem)
    · intro message filled
      -- the body of the filled reply, in terms of the words alone
      have hbody : ∀ data : List (List UInt16),
          data.map List.length = records.map FileRecord.size →
            (file device (List.zipWith FileRecord.withData records data)).body =
              [device, 0x14, UInt8.ofNat dataLen] ++
                data.flatMap fun words =>
                  [UInt8.ofNat (1 + 2 * words.length), 0x06] ++ wordsBytes words := by
        intro data hdata
        have hlen : (file device (List.zipWith FileRecord.withData records data)).expectedLen =
            (file device records).expectedLen :=
          expectedLen_congr (cleared_eq_cleared_file.mpr ⟨data, hdata, rfl⟩)
        have hparts : FileRecord.replyLen (List.zipWith FileRecord.withData records data) =
            dataLen := Nat.add_left_cancel (hlen.trans hsum)
        rw [body, hparts, FileRecord.map_data_zipWith hdata]
        rfl
      rw [decode_eq_ok_iff, cleared_eq_cleared_file]
      constructor
      · rintro ⟨⟨data, hdata, rfl⟩, -, -, rfl⟩
        exact ⟨data, hdata, by rw [hbody data hdata], rfl⟩
      · rintro ⟨data, hdata, rfl, rfl⟩
        exact ⟨⟨data, hdata, rfl⟩, trivial, hfit, by rw [hbody data hdata]⟩

/-- Two records of two words each are waited for and received. -/
theorem ofReadRecords_accepts_two :
    [FileRecord.blank 4 1 2, FileRecord.blank 3 9 2] ≠ [] ∧
      ofReadRecords 0x11 [FileRecord.blank 4 1 2, FileRecord.blank 3 9 2] =
        .ok (file 0x11 [FileRecord.blank 4 1 2, FileRecord.blank 3 9 2]) ∧
      (file 0x11 [FileRecord.blank 4 1 2, FileRecord.blank 3 9 2]).decode
          [0x11, 0x14, 0x0C, 0x05, 0x06, 0x0D, 0xFE, 0x00, 0x20, 0x05, 0x06, 0x33, 0xCD, 0x00,
            0x40, 0x69, 0xAD] =
        .ok (file 0x11 [⟨4, 1, [0x0DFE, 0x0020]⟩, ⟨3, 9, [0x33CD, 0x0040]⟩]) := by
  refine ⟨by decide, rfl, ?_⟩
  have h := ofReadRecords_accepts_exactly 0x11
    [FileRecord.blank 4 1 2, FileRecord.blank 3 9 2] (by decide)
  exact ((h.2 _ rfl).2.2.2 _ _).mpr
    ⟨[[0x0DFE, 0x0020], [0x33CD, 0x0040]], rfl, by decide +kernel, rfl⟩

end Reply

end Modbus
