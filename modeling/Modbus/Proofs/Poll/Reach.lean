import Modbus.Proofs.Poll.Isolation

/-!
# Which registers can be read

A message has room for 125 words. The check of a descriptor does not ask for that: it bounds the
registers that hold numbers, which are narrow (`Descriptor.length_le_two`), but not those that hold
bytes or text. So a register that passes its check can be read if and only if it has no more than
125 words (`Descriptor.canBeRead_iff`): up to 125 words are received as they were sent
(`Reply.exists_decode_sealedWords`), and more are not received, whatever comes
(`Reply.readWords_of_wide`).

`Monitor.polls_reach_125_words` puts this together with what a poll does then.
-/

namespace Modbus

/-- A register that holds a number has one or two words if it passes its check. -/
theorem Descriptor.length_le_two {descriptor : Descriptor} (hcheck : descriptor.check = .ok ())
    (hhex : descriptor.format ≠ .hex) (hstring : descriptor.format ≠ .string) :
    descriptor.length.toNat ≤ 2 := by
  obtain ⟨-, -, hinterprets⟩ := check_eq_ok_iff_usable.mp hcheck
  rw [Interprets] at hinterprets
  cases hformat : descriptor.format with
  | hex => exact absurd hformat hhex
  | string => exact absurd hformat hstring
  | integer | flags =>
    rw [hformat] at hinterprets
    exact Or.elim hinterprets (fun hone => hone ▸ Nat.le_succ 1) Nat.le_of_eq
  | float =>
    rw [hformat] at hinterprets
    exact Or.elim hinterprets.1 (fun hone => hone ▸ Nat.le_succ 1) Nat.le_of_eq

theorem Descriptor.one_le_length {descriptor : Descriptor} (hcheck : descriptor.check = .ok ()) :
    1 ≤ descriptor.length.toNat := by
  obtain ⟨hlength, -⟩ := check_eq_ok_iff_usable.mp hcheck
  exact Nat.one_le_iff_ne_zero.mpr fun hzero => hlength (UInt16.toNat_inj.mp hzero)

namespace Reply

variable {device : UInt8} {count : UInt16}

/-- What a device answers to a read of its registers. -/
def sealedWords (device : UInt8) (words : List UInt16) : List UInt8 :=
  sealed (device :: 0x03 :: UInt8.ofNat (2 * words.length) :: wordsBytes words)

/-- No message has room for more than 125 registers. -/
theorem ofReadHolding_of_wide (hwide : 125 < count.toNat) :
    ofReadHolding device count = .error .outOfBuffer := by
  have hne : count ≠ 0 := by
    rintro rfl
    exact absurd hwide (by decide)
  have hlong : maxFrameLen < (holding device (List.replicate count.toNat 0)).expectedLen := by
    rw [expectedLen, List.length_replicate, maxFrameLen]
    omega
  rw [ofReadHolding, if_neg hne, fitting, if_pos hlong]

/-- **The words of up to 125 registers** are received as they were sent. -/
theorem exists_decode_sealedWords (hpos : 1 ≤ count.toNat) (hle : count.toNat ≤ 125) :
    ∃ reply, ofReadHolding device count = .ok reply ∧
      ∀ words : List UInt16, words.length = count.toNat →
        reply.decode (sealedWords device words) = .ok (.holding device words) := by
  refine ⟨_, ofReadHolding_eq_ok_iff.mpr ⟨hpos, hle, rfl⟩, fun words hwords => ?_⟩
  have hfit : (holding device (List.replicate count.toNat 0)).expectedLen ≤ maxFrameLen := by
    rw [expectedLen, List.length_replicate, maxFrameLen]
    omega
  rw [decode_eq_ok_iff, cleared_eq_cleared_holding, List.length_replicate]
  exact ⟨⟨words, hwords, rfl⟩, trivial, hfit, rfl⟩

theorem readWords_sealed (hpos : 1 ≤ count.toNat) (hle : count.toNat ≤ 125) {words : List UInt16}
    (hwords : words.length = count.toNat) :
    readWords device count (sealedWords device words) = .ok words := by
  obtain ⟨reply, hreply, hdecode⟩ := exists_decode_sealedWords hpos hle
  refine bind_eq_ok_iff.mpr ⟨reply, hreply, ?_⟩
  exact bind_eq_ok_iff.mpr ⟨_, hdecode words hwords, rfl⟩

/-- More words are not received, whatever comes. -/
theorem readWords_of_wide (hwide : 125 < count.toNat) (message : List UInt8) :
    readWords device count message = .error .outOfBuffer := by
  rw [readWords, ofReadHolding_of_wide hwide]
  rfl

end Reply

/-! ### What can be read -/

namespace Descriptor

/-- A reply of the device with the words of the register can be waited for. Whatever these are, it
is taken in, and every history of the register records them. -/
def CanBeRead (device : UInt8) (descriptor : Descriptor) : Prop :=
  ∃ reply history, Reply.ofReadHolding device descriptor.length = .ok reply ∧
    History.ofDescriptor descriptor = .ok history ∧
    ∀ words : List UInt16, words.length = descriptor.length.toNat →
      reply.decode (Reply.sealedWords device words) = .ok (.holding device words) ∧
      ∀ (steps : List History.Step) (time : UInt32),
        ∃ kept after, (history.run steps).record time words = .ok (kept, after)

/-- **What fits a message** can be read, if it passes its check. -/
theorem canBeRead_iff {descriptor : Descriptor} (hcheck : descriptor.check = .ok ())
    (device : UInt8) : descriptor.CanBeRead device ↔ descriptor.length.toNat ≤ 125 := by
  constructor
  · rintro ⟨reply, -, hreply, -⟩
    exact (Reply.ofReadHolding_eq_ok_iff.mp hreply).2.1
  · intro hle
    obtain ⟨reply, hreply, hdecode⟩ := Reply.exists_decode_sealedWords (one_le_length hcheck) hle
    obtain ⟨-, hkeep, -⟩ := check_eq_ok_iff_usable.mp hcheck
    obtain ⟨history, hhistory, -, hfor⟩ := History.exists_ofDescriptor (one_le_keep hkeep)
    refine ⟨reply, history, hreply, hhistory, fun words hwords => ⟨hdecode words hwords, ?_⟩⟩
    intro steps time
    have hfits : (Sample.step { time, words }).Fits descriptor := hwords
    obtain ⟨kept, hkept⟩ := (hfor.run steps).1.exists_perform hfits
    exact ⟨kept, _, History.record_of_perform hkept⟩

end Descriptor

namespace Monitor

variable {database : Database} {point : Point} {descriptor : Descriptor}

/-- What is read of a reply is the answer of a register that is known. -/
theorem Attempt.answer_eq (h : database.descriptorAt point = .ok descriptor) (time : UInt32)
    (reply : List UInt8) :
    Attempt.answer database { point, time, reply } =
      (Reply.readWords point.address descriptor.length reply).mapError .wire >>= fun words =>
        .ok (descriptor, { time, words }) := by
  rw [answer, h]
  rfl

/-- **Registers of up to 125 words can be read**, of those that pass their check, and no others.
Only registers that hold bytes or text can be wider; for these no reply can be waited for. So with
the maps of a loader, after any run of polls, the poll of a wider register fails whatever comes and
changes nothing, and the poll of another one succeeds if the device answers it. -/
theorem polls_reach_125_words (device : UInt8) {descriptor : Descriptor}
    (hcheck : descriptor.check = .ok ()) :
    (descriptor.CanBeRead device ↔ descriptor.length.toNat ≤ 125) ∧
    (descriptor.format ≠ .hex → descriptor.format ≠ .string → descriptor.CanBeRead device) ∧
    (125 < descriptor.length.toNat →
      Reply.ofReadHolding device descriptor.length = .error .outOfBuffer) ∧
    ∀ (steps : List Loader.Step) (attempts : List Attempt) (register : UInt16),
      let database := (({} : Loader).run steps).finish
      let monitor := ({ database } : Monitor).run attempts
      let point : Point := { address := device, register }
      database.descriptorAt point = .ok descriptor →
        (125 < descriptor.length.toNat → ∀ time reply,
          monitor.attempt { point, time, reply } = (.error (.wire .outOfBuffer), monitor)) ∧
        (descriptor.length.toNat ≤ 125 → ∀ (time : UInt32) (words : List UInt16),
          words.length = descriptor.length.toNat →
            ∃ exchange, (monitor.attempt
              { point, time, reply := Reply.sealedWords device words }).1 = .ok exchange) := by
  have hreach := Descriptor.canBeRead_iff hcheck device
  refine ⟨hreach, fun hhex hstring => ?_, Reply.ofReadHolding_of_wide, ?_⟩
  · exact hreach.mpr ((Descriptor.length_le_two hcheck hhex hstring).trans (by decide))
  · intro steps attempts register database monitor point hdescriptor
    have husable : database.Usable := (Loader.isSound_run Loader.isSound_empty steps).usable_finish
    have hreflects : monitor.Reflects database attempts := reflects_run husable attempts
    constructor
    · intro hwide time reply
      refine attempt_of_answer_error ?_
      rw [hreflects.database_eq, Attempt.answer_eq hdescriptor, Reply.readWords_of_wide hwide]
      rfl
    · intro hle time words hwords
      have hpos := Descriptor.one_le_length hcheck
      have hanswer : Attempt.answer database
          { point, time, reply := Reply.sealedWords device words } =
            .ok (descriptor, { time, words }) := by
        rw [Attempt.answer_eq hdescriptor, Reply.readWords_sealed hpos hle hwords]
        rfl
      obtain ⟨exchange, _, _, hattempt⟩ := hreflects.exists_attempt husable hanswer
      exact ⟨exchange, congrArg Prod.fst hattempt⟩

/-- A register that holds bytes. -/
def blob (length : UInt16) : Descriptor :=
  { start := 0, length, name := "Blob" }

/-- The map of a device with that register, as it is written in a configuration. -/
def blobMap (length : ℕ) : Json :=
  .object [("name", .text "rack"), ("address_range", .array [.nat 160, .nat 169]),
    ("probe_register", .nat 0), ("default_baudrate", .nat 19200),
    ("registers", .array [.object [("begin", .nat 0), ("length", .nat length),
      ("name", .text "Blob")]])]

/-- The map is taken in, and three words can be read. -/
theorem polls_reach_125_words_three :
    let steps : List Loader.Step := [.load (blobMap 3)]
    let database := (({} : Loader).run steps).finish
    let point : Point := { address := 0xA0, register := 0 }
    let reply : List UInt8 := [0xA0, 0x03, 0x06, 0x00, 0x01, 0x00, 0x02, 0x00, 0x03, 0x08, 0xE3]
    (blob 3).check = .ok () ∧ (blob 3).CanBeRead 0xA0 ∧
      database.descriptorAt point = .ok (blob 3) ∧ Reply.sealedWords 0xA0 [1, 2, 3] = reply ∧
      ∃ exchange, (({ database } : Monitor).attempt { point, time := 7, reply }).1 =
        .ok exchange := by
  intro steps database point reply
  have hcheck : (blob 3).check = .ok () := rfl
  have hle : (blob 3).length.toNat ≤ 125 := by decide
  have hfound : database.descriptorAt point = .ok (blob 3) := by decide +kernel
  have hreply : Reply.sealedWords 0xA0 [1, 2, 3] = reply := by decide +kernel
  obtain ⟨hreach, -, -, hpolls⟩ := polls_reach_125_words 0xA0 hcheck
  obtain ⟨exchange, hexchange⟩ := (hpolls steps [] 0 hfound).2 hle 7 [1, 2, 3] rfl
  rw [hreply] at hexchange
  exact ⟨hcheck, hreach.mpr hle, hfound, hreply, exchange, hexchange⟩

/-- **A wide register** passes its check and is taken in with its map, but cannot be read. -/
theorem wide_blob_cannot_be_read :
    let database := (({} : Loader).run [.load (blobMap 126)]).finish
    (blob 126).check = .ok () ∧
      database.descriptorAt { address := 0xA0, register := 0 } = .ok (blob 126) ∧
      Reply.ofReadHolding 0xA0 (blob 126).length = .error .outOfBuffer ∧
      ¬ (blob 126).CanBeRead 0xA0 := by
  intro database
  have hfailed : Reply.ofReadHolding 0xA0 (blob 126).length = .error .outOfBuffer :=
    Reply.ofReadHolding_of_wide (by decide)
  refine ⟨rfl, by decide +kernel, hfailed, ?_⟩
  rintro ⟨reply, -, hreply, -⟩
  cases hfailed.symm.trans hreply

end Monitor

end Modbus
