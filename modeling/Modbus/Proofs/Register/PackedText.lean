import Mathlib.Data.List.DropRight
import Modbus.Proofs.Register.Interpretation
import Modbus.Proofs.Text.Utf8

/-!
# Texts in registers

A device packs a text into a register two bytes to a word, the high byte first, and fills the rest
of the register up with zeros (`Value.packed`). The reading drops zeros at its end before it looks
for characters. So a text that does not end in zero itself comes back as it was packed
(`Value.textOf_packed`), whatever its bytes and words have to do with each other; no reading ends in
zero, not even one that holds no text (`Value.getLast?_textOf`); and more words of zero make no
difference (`Value.textOf_append_zeros`).

`Measurement.string_holds_packed_text` puts this together.
-/

namespace Modbus

namespace Value

/-! ### Packing -/

/-- The words of a register that is `width` words wide and holds a text: the bytes of the text, then
zeros. -/
def packed (width : ℕ) (text : String) : List UInt16 :=
  wordsOfBytes (Utf8.encode text ++ List.replicate (2 * width - (Utf8.encode text).length) 0)

section Packed

variable {width : ℕ} {text : String} (hfits : (Utf8.encode text).length ≤ 2 * width)

include hfits

/-- Text and zeros fill the register. -/
theorem length_packed_bytes :
    (Utf8.encode text ++
      List.replicate (2 * width - (Utf8.encode text).length) (0 : UInt8)).length = 2 * width := by
  rw [List.length_append, List.length_replicate, Nat.add_sub_cancel' hfits]

theorem length_packed : (packed width text).length = width :=
  length_wordsOfBytes (length_packed_bytes hfits)

theorem wordsBytes_packed :
    wordsBytes (packed width text) =
      Utf8.encode text ++ List.replicate (2 * width - (Utf8.encode text).length) 0 :=
  wordsBytes_wordsOfBytes (length_packed_bytes hfits)

end Packed

/-! ### Zeros at the end -/

theorem trimZeros_eq_rdropWhile (bytes : List UInt8) :
    trimZeros bytes = bytes.rdropWhile fun byte => decide (byte = 0) := rfl

/-- No zero is left at the end. -/
theorem getLast?_trimZeros (bytes : List UInt8) : (trimZeros bytes).getLast? ≠ some 0 := by
  intro hlast
  have hne : trimZeros bytes ≠ [] := by
    intro hnil
    rw [hnil] at hlast
    cases hlast
  have hzero : (trimZeros bytes).getLast hne = 0 :=
    Option.some.inj ((List.getLast?_eq_some_getLast hne).symm.trans hlast)
  refine List.rdropWhile_last_not (fun byte => decide (byte = 0)) bytes hne ?_
  exact decide_eq_true hzero

/-- Nothing is dropped of bytes that do not end in zero. -/
theorem trimZeros_of_getLast? {bytes : List UInt8} (hbytes : bytes.getLast? ≠ some 0) :
    trimZeros bytes = bytes := by
  rw [trimZeros_eq_rdropWhile, List.rdropWhile_eq_self_iff]
  intro hne hzero
  refine hbytes ?_
  rw [List.getLast?_eq_some_getLast hne, of_decide_eq_true hzero]

/-- Zeros behind bytes are dropped. -/
theorem trimZeros_append_zeros (bytes : List UInt8) (count : ℕ) :
    trimZeros (bytes ++ List.replicate count 0) = trimZeros bytes := by
  induction count with
  | zero => rw [List.replicate_zero, List.append_nil]
  | succ count ih =>
    rw [List.replicate_succ', ← List.append_assoc, trimZeros_eq_rdropWhile,
      List.rdropWhile_concat_pos _ _ _ (by decide), ← trimZeros_eq_rdropWhile, ih]

/-- Words of zero are bytes of zero. -/
theorem wordsBytes_replicate_zero (count : ℕ) :
    wordsBytes (List.replicate count 0) = List.replicate (2 * count) 0 := by
  induction count with
  | zero => rfl
  | succ count ih =>
    rw [List.replicate_succ, wordsBytes_cons, ih]
    rfl

/-! ### Words as text -/

/-- **A text that was packed** comes back, if it does not end in zero. -/
theorem textOf_packed {width : ℕ} {text : String} (hfits : (Utf8.encode text).length ≤ 2 * width)
    (hend : text.toList.getLast? ≠ some '\x00') : textOf (packed width text) = text := by
  have hbytes : (Utf8.encode text).getLast? ≠ some 0 := (Utf8.getLast?_encode text).not.mpr hend
  rw [textOf, wordsBytes_packed hfits, trimZeros_append_zeros, trimZeros_of_getLast? hbytes,
    Utf8.decodeLossy_encode]

/-- **No text** of words ends in zero. -/
theorem getLast?_textOf (words : List UInt16) : (textOf words).toList.getLast? ≠ some '\x00' :=
  Utf8.getLast?_decodeLossy (getLast?_trimZeros (wordsBytes words))

/-- **More words of zero** do not change a text. -/
theorem textOf_append_zeros (words : List UInt16) (count : ℕ) :
    textOf (words ++ List.replicate count 0) = textOf words := by
  have hbytes : wordsBytes (words ++ List.replicate count 0) =
      wordsBytes words ++ List.replicate (2 * count) 0 := by
    rw [wordsBytes, List.flatMap_append, ← wordsBytes, ← wordsBytes, wordsBytes_replicate_zero]
  rw [textOf, hbytes, trimZeros_append_zeros, ← textOf]

end Value

namespace Measurement

/-- In the format for text, words of the right number are read as text. -/
theorem ofWords_of_string {descriptor : Descriptor} (hformat : descriptor.format = .string)
    {words : List UInt16} (hlength : words.length = descriptor.length.toNat) (time : UInt32) :
    ofWords descriptor words time = .ok { time, value := .string (Value.textOf words) } := by
  rw [ofWords_eq_ok_iff, Value.ofWords, if_neg (not_not.mpr hlength), hformat]

/-- **Registers hold the texts that are packed into them.** A text that fits the register and does
not end in zero is what the register is read as once its bytes have been packed into the words. Any
words are read as some text, which does not end in zero, and which stays the same if words of zero
are put behind them and the register is made as much wider. -/
theorem string_holds_packed_text {descriptor : Descriptor} (hformat : descriptor.format = .string)
    (time : UInt32) :
    (∀ text : String, (Utf8.encode text).length ≤ 2 * descriptor.length.toNat →
      text.toList.getLast? ≠ some '\x00' →
        let words := Value.packed descriptor.length.toNat text
        words.length = descriptor.length.toNat ∧
          wordsBytes words = Utf8.encode text ++
            List.replicate (2 * descriptor.length.toNat - (Utf8.encode text).length) 0 ∧
          ofWords descriptor words time = .ok { time, value := .string text }) ∧
      ∀ words : List UInt16, words.length = descriptor.length.toNat →
        ∃ text : String, ofWords descriptor words time = .ok { time, value := .string text } ∧
          text.toList.getLast? ≠ some '\x00' ∧
          ∀ (count : ℕ) (wider : UInt16), wider.toNat = descriptor.length.toNat + count →
            ofWords { descriptor with length := wider } (words ++ List.replicate count 0) time =
              .ok { time, value := .string text } := by
  constructor
  · intro text hfits hend words
    have hlength : words.length = descriptor.length.toNat := Value.length_packed hfits
    refine ⟨hlength, Value.wordsBytes_packed hfits, ?_⟩
    rw [ofWords_of_string hformat hlength, Value.textOf_packed hfits hend]
  · intro words hlength
    refine ⟨Value.textOf words, ofWords_of_string hformat hlength time,
      Value.getLast?_textOf words, ?_⟩
    intro count wider hwider
    have hwords : (words ++ List.replicate count 0).length = wider.toNat := by
      rw [List.length_append, List.length_replicate, hlength, hwider]
    have hread := ofWords_of_string (show { descriptor with length := wider }.format = .string
      from hformat) hwords time
    rw [hread, Value.textOf_append_zeros]

/-- Seven bytes in five words. A zero stands among them, and both characters of more than one byte
begin in one word and end in the next. -/
theorem string_holds_packed_text_straddling :
    let descriptor : Descriptor := { start := 0, length := 5, name := "model", format := .string }
    let words : List UInt16 := [0x61C3, 0xA900, 0xE282, 0xAC00, 0x0000]
    descriptor.format = .string ∧ (Utf8.encode "aé\x00€").length ≤ 2 * descriptor.length.toNat ∧
      "aé\x00€".toList.getLast? ≠ some '\x00' ∧ Value.packed 5 "aé\x00€" = words ∧
      ofWords descriptor words 9 = .ok { time := 9, value := .string "aé\x00€" } ∧
      ofWords { descriptor with length := 6 } (words ++ [0]) 9 =
        .ok { time := 9, value := .string "aé\x00€" } := by
  intro descriptor words
  have hfits : (Utf8.encode "aé\x00€").length ≤ 2 * descriptor.length.toNat := by decide
  have hend : "aé\x00€".toList.getLast? ≠ some '\x00' := by decide
  have hwords : Value.packed 5 "aé\x00€" = words := by decide
  have hformat : descriptor.format = .string := rfl
  obtain ⟨hpacked, hany⟩ := string_holds_packed_text hformat 9
  obtain ⟨hlength, -, hread⟩ := hpacked "aé\x00€" hfits hend
  obtain ⟨text, htext, -, hwider⟩ := hany words rfl
  have hsame : ofWords descriptor words 9 = .ok { time := 9, value := .string "aé\x00€" } := by
    rwa [show Value.packed descriptor.length.toNat "aé\x00€" = words from hwords] at hread
  cases htext.symm.trans hsame
  exact ⟨hformat, hfits, hend, hwords, hsame, hwider 1 6 rfl⟩

end Measurement

end Modbus
