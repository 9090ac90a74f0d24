import Mathlib.Data.Int.ModEq
import Mathlib.Data.Nat.Digits.Defs
import Modbus.Proofs.Register.Interpretation

/-!
# One number in every format

The formats of bytes, of signed numbers and of flags show the same number. `bigEndian` is the number
that digits spell in a base, the most significant digit first. The words of a register spell in base
`2 ^ 16` what its bytes spell in base `2 ^ 8` (`bigEndian_wordsBytes`). One or two words make a
number of 32 bits (`Value.compose_eq`), which is also found by shifting the words in
(`Value.ofNat_numberOf_eq_shifts`). The signed number is the only one of 32 bits that is the same
modulo `2 ^ 32` (`Value.modEq_iff_eq_ofNat`), and every flag is a binary digit
(`Value.bitOf_eq_true_iff`).

`Measurement.formats_show_one_number` puts this together.
-/

namespace Modbus

/-! ### Numbers in a base -/

/-- The number that digits spell in a base, the most significant first. -/
def bigEndian (base : ℕ) (digits : List ℕ) : ℕ :=
  Nat.ofDigits base digits.reverse

theorem bigEndian_cons (base digit : ℕ) (digits : List ℕ) :
    bigEndian base (digit :: digits) = digit * base ^ digits.length + bigEndian base digits := by
  rw [bigEndian, List.reverse_cons, Nat.ofDigits_append, Nat.ofDigits_singleton,
    List.length_reverse, bigEndian]
  ring

/-- **Bytes spell what their words spell.** -/
theorem bigEndian_wordsBytes (words : List UInt16) :
    bigEndian 256 ((wordsBytes words).map UInt8.toNat) =
      bigEndian 65536 (words.map UInt16.toNat) := by
  induction words with
  | nil => rfl
  | cons word words ih =>
    have hword := word.toNat_lt
    have hhigh : (UInt8.ofNat (word.toNat / 256)).toNat = word.toNat / 256 :=
      UInt8.toNat_ofNat_of_lt' (by rw [UInt8.size]; omega)
    have hlow : word.toUInt8.toNat = word.toNat % 256 := UInt16.toNat_toUInt8 word
    have hbytes : (wordsBytes (word :: words)).map UInt8.toNat =
        word.toNat / 256 :: word.toNat % 256 :: (wordsBytes words).map UInt8.toNat := by
      rw [wordsBytes_cons, wordBytes, List.map_append, List.map_cons, List.map_singleton, hhigh,
        hlow]
      rfl
    have hpower : 256 ^ (2 * words.length) = 65536 ^ words.length := pow_mul 256 2 words.length
    have hdigits : word.toNat / 256 * 256 + word.toNat % 256 = word.toNat := Nat.div_add_mod' ..
    rw [hbytes, bigEndian_cons, bigEndian_cons, ih, List.map_cons, bigEndian_cons,
      List.length_cons, List.length_map, List.length_map, length_wordsBytes, pow_succ, hpower]
    conv_rhs => rw [← hdigits]
    ring

namespace Value

/-! ### Words as a number -/

theorem numberOf_eq_bigEndian (words : List UInt16) :
    numberOf words = bigEndian 65536 (words.map UInt16.toNat) := by
  rw [bigEndian, Nat.ofDigits_eq_foldr, List.foldr_reverse, List.foldl_map, numberOf]
  congr 1
  funext n word
  exact Nat.add_comm ..

/-- One or two words make the number that their digits spell. -/
theorem compose_eq_bigEndian {words : List UInt16}
    (hcount : words.length = 1 ∨ words.length = 2) :
    compose words = .ok (UInt32.ofNat (bigEndian 65536 (words.map UInt16.toNat))) := by
  rw [compose_eq hcount, numberOf_eq_bigEndian]

/-- **The signed number** of 32 bits is the only one that is the same modulo `2 ^ 32`. -/
theorem modEq_iff_eq_ofNat {n : ℕ} {i : Int32} :
    i.toInt ≡ n [ZMOD 2 ^ 32] ↔ i = (UInt32.ofNat n).toInt32 := by
  rw [UInt32.toInt32_ofNat', ← Int32.toInt_inj, Int32.toInt_ofNat']
  constructor
  · intro h
    rw [← Int32.toInt_bmod_size, ← Int.emod_bmod, ← Int.emod_bmod (n : ℤ)]
    exact congrArg (Int.bmod · Int32.size) h
  · intro h
    rw [h]
    exact Int.bmod_emod

/-- A number of less than 31 bits is not negative as a signed number. -/
theorem toInt_ofNat_nonneg {n : ℕ} (hn : n < 2 ^ 31) : 0 ≤ (UInt32.ofNat n).toInt32.toInt := by
  rw [UInt32.toInt32_ofNat', Int32.toInt_ofNat_of_lt hn]
  exact Int.natCast_nonneg n

/-- **A flag** is a binary digit, if it is one of the 32. -/
theorem bitOf_eq_true_iff {bits : UInt32} {position : UInt8} :
    bitOf bits position = true ↔
      position.toNat < 32 ∧ Odd (bits.toNat / 2 ^ position.toNat) := by
  rw [bitOf, Bool.and_eq_true, decide_eq_true_eq, Nat.testBit_eq_decide_div_mod_eq,
    decide_eq_true_eq, Nat.odd_iff]

/-- What a row of a table of flags is shown as, for a number of so many words. -/
structure ShowsFlag (n width : ℕ) (row : UInt8 × String) (state : Bool × String) : Prop where
  label_eq : state.2 = row.2
  /-- The state is a binary digit of the number. -/
  on_iff : state.1 = true ↔ row.1.toNat < 32 ∧ Odd (n / 2 ^ row.1.toNat)
  /-- A position beyond the words is shown too. -/
  off_of_le : 16 * width ≤ row.1.toNat → state.1 = false

/-- The rows of a table are shown one by one. -/
theorem forall₂_flagsOf {n width : ℕ} (hn : n < 2 ^ (16 * width)) (hwidth : width ≤ 2)
    (table : List (UInt8 × String)) :
    List.Forall₂ (ShowsFlag n width) table (flagsOf (UInt32.ofNat n) table) := by
  have hroom : 2 ^ (16 * width) ≤ 2 ^ 32 := Nat.pow_le_pow_right two_pos (by omega)
  have hword : (UInt32.ofNat n).toNat = n := UInt32.toNat_ofNat_of_lt' (hn.trans_le hroom)
  rw [flagsOf, List.forall₂_map_right_iff, List.forall₂_same]
  rintro ⟨position, label⟩ -
  have hon : bitOf (UInt32.ofNat n) position = true ↔
      position.toNat < 32 ∧ Odd (n / 2 ^ position.toNat) := by
    rw [bitOf_eq_true_iff, hword]
  refine ⟨rfl, hon, fun hle => ?_⟩
  have hzero : n / 2 ^ position.toNat = 0 :=
    Nat.div_eq_of_lt (hn.trans_le (Nat.pow_le_pow_right two_pos hle))
  rw [← Bool.not_eq_true, hon, hzero]
  exact fun h => Nat.not_odd_zero h.2

end Value

/-- The words are as many as the register has, and it is read in the format. -/
structure Descriptor.ReadsAs (descriptor : Descriptor) (format : Format) (words : List UInt16) :
    Prop where
  format_eq : descriptor.format = format
  length_eq : words.length = descriptor.length.toNat

namespace Value

variable {descriptor : Descriptor} {words : List UInt16}

theorem ofWords_of_hex (h : descriptor.ReadsAs .hex words) :
    ofWords descriptor words = .ok (.hex (wordsBytes words)) := by
  rw [ofWords, if_neg (not_not.mpr h.length_eq), h.format_eq]

theorem ofWords_of_integer (h : descriptor.ReadsAs .integer words)
    (hcount : words.length = 1 ∨ words.length = 2) :
    ofWords descriptor words = .ok
      (.integer (UInt32.ofNat (bigEndian 65536 (words.map UInt16.toNat))).toInt32) := by
  rw [ofWords, if_neg (not_not.mpr h.length_eq), h.format_eq, compose_eq_bigEndian hcount]
  rfl

theorem ofWords_of_flags (h : descriptor.ReadsAs .flags words)
    (hcount : words.length = 1 ∨ words.length = 2) :
    ofWords descriptor words = .ok
      (.flags (flagsOf (UInt32.ofNat (bigEndian 65536 (words.map UInt16.toNat)))
        descriptor.flags)) := by
  rw [ofWords, if_neg (not_not.mpr h.length_eq), h.format_eq, compose_eq_bigEndian hcount]
  rfl

/-- Bytes are the value of the words that they are made of, and of no others. -/
theorem eq_of_ofWords_eq_hex (h : ofWords descriptor words = .ok (.hex bytes)) :
    wordsBytes words = bytes := by
  have hformat : descriptor.format = .hex := (Descriptor.format_eq_of_ofWords h).symm
  rw [ofWords, hformat] at h
  split at h
  · cases h
  · exact hex.inj (Except.ok.inj h)

end Value

namespace Measurement

/-- **Every format shows the same number.** Let `n` be the number that words spell in base
`2 ^ 16`. The value as bytes has two bytes for each word, which spell `n` in base `2 ^ 8`; other
words have another value. The value of one or two words as a signed number is the number of 32 bits
that is `n` modulo `2 ^ 32`, and not negative for one word. Their value as flags has a state for
each row of the table, in its order and with its label. A flag is on if its position is less than 32
and `n`, divided by two to the power of the position, is odd; flags beyond the words are off. -/
theorem formats_show_one_number (words : List UInt16) (time : UInt32) :
    let n := bigEndian 65536 (words.map UInt16.toNat)
    (∃ bytes, bytes.length = 2 * words.length ∧ bigEndian 256 (bytes.map UInt8.toNat) = n ∧
      ofRawWords words = { time := 0, value := .hex bytes } ∧
      (∀ descriptor : Descriptor, descriptor.ReadsAs .hex words →
        ofWords descriptor words time = .ok { time, value := .hex bytes }) ∧
      (∀ words' : List UInt16, (ofRawWords words').value = .hex bytes → words' = words) ∧
      ∀ (descriptor' : Descriptor) (words' : List UInt16) (time' : UInt32),
        ofWords descriptor' words' time' = .ok { time := time', value := .hex bytes } →
          words' = words) ∧
    (words.length = 1 ∨ words.length = 2 →
      (∃ i : Int32, (∀ j : Int32, j.toInt ≡ n [ZMOD 2 ^ 32] ↔ j = i) ∧
        (words.length = 1 → 0 ≤ i.toInt) ∧
        ∀ descriptor : Descriptor, descriptor.ReadsAs .integer words →
          ofWords descriptor words time = .ok { time, value := .integer i }) ∧
      ∀ descriptor : Descriptor, descriptor.ReadsAs .flags words →
        ∃ states, ofWords descriptor words time = .ok { time, value := .flags states } ∧
          List.Forall₂ (Value.ShowsFlag n words.length) descriptor.flags states) := by
  intro n
  have hn : n < 2 ^ (16 * words.length) := by
    have hlt := Value.numberOf_lt_pow words
    rwa [Value.numberOf_eq_bigEndian, show (65536 : ℕ) = 2 ^ 16 from rfl, ← pow_mul] at hlt
  constructor
  · refine ⟨wordsBytes words, length_wordsBytes words, bigEndian_wordsBytes words, rfl, ?_, ?_, ?_⟩
    · intro descriptor hreads
      exact ofWords_eq_ok_iff.mpr (Value.ofWords_of_hex hreads)
    · intro words' hvalue
      exact wordsBytes_inj.mp (Value.hex.inj hvalue)
    · intro descriptor' words' time' hok
      exact wordsBytes_inj.mp (Value.eq_of_ofWords_eq_hex (ofWords_eq_ok_iff.mp hok))
  · intro hcount
    constructor
    · refine ⟨(UInt32.ofNat n).toInt32, fun j => Value.modEq_iff_eq_ofNat, ?_, ?_⟩
      · intro hone
        rw [hone] at hn
        exact Value.toInt_ofNat_nonneg (hn.trans (by decide))
      · intro descriptor hreads
        exact ofWords_eq_ok_iff.mpr (Value.ofWords_of_integer hreads hcount)
    · intro descriptor hreads
      exact ⟨_, ofWords_eq_ok_iff.mpr (Value.ofWords_of_flags hreads hcount),
        Value.forall₂_flagsOf hn (by omega) descriptor.flags⟩

/-- The first bit of two words makes a number negative. A flag is shown twice, and another one
beyond all bits. -/
theorem formats_show_one_number_negative :
    let words : List UInt16 := [0x8002, 0x0081]
    let integer : Descriptor := { start := 0x40, length := 2, name := "state", format := .integer }
    let flags : Descriptor := { integer with
      format := .flags
      flags := [(31, "alarm"), (17, "door"), (1, "pump"), (17, "door"), (40, "spare")] }
    let states : List (Bool × String) :=
      [(true, "alarm"), (true, "door"), (false, "pump"), (true, "door"), (false, "spare")]
    bigEndian 65536 (words.map UInt16.toNat) = 0x80020081 ∧
      ofRawWords words = { time := 0, value := .hex [0x80, 0x02, 0x00, 0x81] } ∧
      integer.ReadsAs .integer words ∧
      ofWords integer words 5 = .ok { time := 5, value := .integer (-0x7FFDFF7F) } ∧
      (∀ i : Int32, i.toInt ≡ 0x80020081 [ZMOD 2 ^ 32] → i = -0x7FFDFF7F) ∧
      flags.ReadsAs .flags words ∧
      ofWords flags words 5 = .ok { time := 5, value := .flags states } ∧
      List.Forall₂ (Value.ShowsFlag 0x80020081 2) flags.flags states := by
  intro words integer flags states
  have hinteger : integer.ReadsAs .integer words := ⟨rfl, rfl⟩
  have hflags : flags.ReadsAs .flags words := ⟨rfl, rfl⟩
  have hstates : ofWords flags words 5 = .ok { time := 5, value := .flags states } := by decide
  obtain ⟨-, hnumber⟩ := formats_show_one_number words 5
  obtain ⟨⟨i, hunique, -, hread⟩, hshow⟩ := hnumber (.inr rfl)
  have hi : i = -0x7FFDFF7F := ((hunique _).mp (by decide)).symm
  subst hi
  obtain ⟨shown, hshown, hrows⟩ := hshow flags hflags
  cases hstates.symm.trans hshown
  exact ⟨rfl, rfl, hinteger, hread integer hinteger, fun j hj => (hunique j).mp hj, hflags,
    hstates, hrows⟩

end Measurement

end Modbus
