/-!
# Words as bytes

A word of a register travels as two bytes, the high byte first. `wordBytes` and `wordsBytes`
lay words out, `wordOfBytes` and `wordsOfBytes` read them back, and reading undoes laying out
(`wordsOfBytes_wordsBytes`).
-/

namespace Modbus

/-- The two bytes of a word, high byte first. -/
def wordBytes (word : UInt16) : List UInt8 :=
  [UInt8.ofNat (word.toNat / 256), word.toUInt8]

/-- The word whose high and low bytes are given. -/
def wordOfBytes (high low : UInt8) : UInt16 :=
  UInt16.ofNat (256 * high.toNat + low.toNat)

/-- The bytes of a list of words, in order. -/
def wordsBytes (words : List UInt16) : List UInt8 :=
  words.flatMap wordBytes

/-- The words spelled by a list of bytes; an odd last byte spells none. -/
def wordsOfBytes : List UInt8 → List UInt16
  | high :: low :: rest => wordOfBytes high low :: wordsOfBytes rest
  | _ => []

@[simp] theorem length_wordBytes (word : UInt16) : (wordBytes word).length = 2 := rfl

@[simp] theorem wordsBytes_nil : wordsBytes [] = [] := rfl

@[simp] theorem wordsBytes_cons (word : UInt16) (words : List UInt16) :
    wordsBytes (word :: words) = wordBytes word ++ wordsBytes words := rfl

@[simp] theorem length_wordsBytes (words : List UInt16) :
    (wordsBytes words).length = 2 * words.length := by
  induction words with
  | nil => rfl
  | cons word words ih => simp [ih]; omega

/-- The bytes of a word spell that word. -/
theorem wordOfBytes_wordBytes (word : UInt16) :
    wordOfBytes (UInt8.ofNat (word.toNat / 256)) word.toUInt8 = word := by
  have h := word.toNat_lt
  apply UInt16.toNat_inj.mp
  simp only [wordOfBytes, UInt16.toNat_ofNat', UInt8.toNat_ofNat', UInt16.toNat_toUInt8]
  omega

/-- **Words read back** as they were laid out. -/
@[simp] theorem wordsOfBytes_wordsBytes (words : List UInt16) :
    wordsOfBytes (wordsBytes words) = words := by
  induction words with
  | nil => rfl
  | cons word words ih =>
    simp [wordBytes, wordsOfBytes, wordOfBytes_wordBytes, ih]

/-- Lists of words that are laid out alike are the same. -/
@[simp] theorem wordsBytes_inj {first second : List UInt16} :
    wordsBytes first = wordsBytes second ↔ first = second := by
  constructor
  · intro h
    rw [← wordsOfBytes_wordsBytes first, h, wordsOfBytes_wordsBytes]
  · rintro rfl
    rfl

/-- A word read from two bytes is laid out as these two bytes. -/
theorem wordBytes_wordOfBytes (high low : UInt8) :
    wordBytes (wordOfBytes high low) = [high, low] := by
  have hh := high.toNat_lt
  have hl := low.toNat_lt
  simp only [wordBytes, wordOfBytes, UInt16.toNat_ofNat', List.cons.injEq, and_true]
  constructor <;> apply UInt8.toNat_inj.mp <;>
    simp only [UInt8.toNat_ofNat', UInt16.toNat_toUInt8, UInt16.toNat_ofNat'] <;> omega

/-- **Bytes read back**: an even number of them is what the words they spell are laid out as. -/
theorem wordsBytes_wordsOfBytes {bytes : List UInt8} {count : Nat}
    (h : bytes.length = 2 * count) : wordsBytes (wordsOfBytes bytes) = bytes := by
  induction count generalizing bytes with
  | zero =>
    obtain rfl := List.eq_nil_of_length_eq_zero h
    rfl
  | succ count ih =>
    rcases bytes with _ | ⟨high, _ | ⟨low, rest⟩⟩
    · simp at h
    · simp only [List.length_cons, List.length_nil] at h
      omega
    · have hrest : rest.length = 2 * count := by
        simp only [List.length_cons] at h
        omega
      rw [wordsOfBytes, wordsBytes_cons, wordBytes_wordOfBytes, ih hrest]
      rfl

/-- Every two bytes spell a word. -/
theorem length_wordsOfBytes {bytes : List UInt8} {count : Nat} (h : bytes.length = 2 * count) :
    (wordsOfBytes bytes).length = count := by
  have hlength := length_wordsBytes (wordsOfBytes bytes)
  rw [wordsBytes_wordsOfBytes h] at hlength
  omega

end Modbus
