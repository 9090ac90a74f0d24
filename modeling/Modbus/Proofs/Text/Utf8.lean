import Mathlib.Data.String.Basic
import Modbus.Text.Utf8

/-!
# Texts and their bytes

Bytes are read as a text if they are the bytes of that text, and for no other reason
(`Utf8.decode?_eq_some_iff`). This is shown along the bytes that spell one character
(`Utf8.Spells`): they are read as that character whatever follows (`Utf8.Spells.scanFrom_append`),
and any bytes begin with some of that kind or with a gap (`Utf8.scanFrom_none_cases`). Hence no gap
hides a zero: what is read of bytes ends in zero only if the bytes do (`Utf8.getLast?_decodeLossy`).
A byte that is a character of its own parts a text, whatever stands before it
(`Utf8.decodeLossy_append_ascii`).
-/

namespace Modbus.Utf8

theorem encode_eq_flatMap (text : String) :
    encode text = text.toList.flatMap String.utf8EncodeChar := by
  rw [encode, String.toUTF8_eq_toByteArray, ← String.utf8Encode_toList, List.utf8Encode,
    List.toList_data_toByteArray]

/-! ### Reading bytes -/

theorem lead?_of_two {byte : UInt8} (h : 0xC2 ≤ byte.toNat ∧ byte.toNat ≤ 0xDF) :
    lead? byte = some { code := byte.toNat - 0xC0, missing := 1 } :=
  if_pos h

theorem lead?_of_three {byte : UInt8} (h : 0xE0 ≤ byte.toNat ∧ byte.toNat ≤ 0xEF) :
    lead? byte = some {
      code := byte.toNat - 0xE0
      missing := 2
      least := if byte.toNat = 0xE0 then 0xA0 else 0x80
      most := if byte.toNat = 0xED then 0x9F else 0xBF } := by
  grind [lead?]

theorem lead?_of_four {byte : UInt8} (h : 0xF0 ≤ byte.toNat ∧ byte.toNat ≤ 0xF4) :
    lead? byte = some {
      code := byte.toNat - 0xF0
      missing := 3
      least := if byte.toNat = 0xF0 then 0x90 else 0x80
      most := if byte.toNat = 0xF4 then 0x8F else 0xBF } := by
  grind [lead?]

theorem lead?_eq_none {byte : UInt8} (htwo : ¬ (0xC2 ≤ byte.toNat ∧ byte.toNat ≤ 0xDF))
    (hthree : ¬ (0xE0 ≤ byte.toNat ∧ byte.toNat ≤ 0xEF))
    (hfour : ¬ (0xF0 ≤ byte.toNat ∧ byte.toNat ≤ 0xF4)) : lead? byte = none := by
  grind [lead?]

variable {started : Started} {byte : UInt8} {bytes rest : List UInt8}

/-- The byte may follow what has been started. -/
def Started.Allows (started : Started) (byte : UInt8) : Prop :=
  started.least ≤ byte ∧ byte ≤ started.most

/-- A byte that is not the first of its character. -/
def IsTail (byte : UInt8) : Prop :=
  0x80 ≤ byte.toNat ∧ byte.toNat ≤ 0xBF

theorem allows_iff_isTail {code missing : Nat} :
    ({ code, missing } : Started).Allows byte ↔ IsTail byte := by
  rw [Started.Allows, UInt8.le_iff_toNat_le, UInt8.le_iff_toNat_le]
  rfl

/-- The second of three or four bytes is bounded further behind some first bytes. -/
theorem allows_second_iff {code missing : Nat} {p q : Prop} [Decidable p] [Decidable q]
    {low high : UInt8} (hlow : 0x80 ≤ low.toNat) (hhigh : high.toNat ≤ 0xBF) :
    ({ code, missing, least := if p then low else 0x80, most := if q then high else 0xBF } :
      Started).Allows byte ↔
      IsTail byte ∧ (p → low.toNat ≤ byte.toNat) ∧ (q → byte.toNat ≤ high.toNat) := by
  have hleast : (0x80 : UInt8).toNat = 0x80 := rfl
  have hmost : (0xBF : UInt8).toNat = 0xBF := rfl
  rw [Started.Allows, UInt8.le_iff_toNat_le, UInt8.le_iff_toNat_le, IsTail]
  by_cases hp : p <;> by_cases hq : q <;> simp [hp, hq, hleast, hmost] <;> omega

theorem scanFrom_cons (state : Option Started) (byte : UInt8) (bytes : List UInt8) :
    scanFrom state (byte :: bytes) = (step state byte).1 ++ scanFrom (step state byte).2 bytes := by
  rw [scanFrom]

/-- The last byte of a character. -/
theorem scanFrom_last (hbyte : started.Allows byte) (hmissing : started.missing = 1) :
    scanFrom (some started) (byte :: rest) =
      some (Char.ofNat (64 * started.code + (byte.toNat - 0x80))) :: scanFrom none rest := by
  rw [Started.Allows] at hbyte
  rw [scanFrom_cons, step, if_pos hbyte, if_pos hmissing]
  rfl

/-- One more byte of a character. -/
theorem scanFrom_next (hbyte : started.Allows byte) (hmissing : started.missing ≠ 1) :
    scanFrom (some started) (byte :: rest) =
      scanFrom (some {
        code := 64 * started.code + (byte.toNat - 0x80)
        missing := started.missing - 1 }) rest := by
  rw [Started.Allows] at hbyte
  rw [scanFrom_cons, step, if_pos hbyte, if_neg hmissing]
  rfl

/-- A character that has been started goes on, or the bytes before it are a gap. -/
theorem goes_on_or_gap {started : Started} {rest : List UInt8}
    (h : scanFrom none bytes = scanFrom (some started) rest) :
    (∃ byte later, rest = byte :: later ∧ started.Allows byte) ∨
      scanFrom none bytes = none :: scanFrom none rest := by
  rw [h]
  cases rest with
  | nil => exact .inr rfl
  | cons byte later =>
    by_cases hbyte : started.Allows byte
    · exact .inl ⟨byte, later, rfl, hbyte⟩
    · refine .inr ?_
      rw [Started.Allows] at hbyte
      rw [scanFrom_cons, step, if_neg hbyte]
      rfl

theorem scanFrom_ascii (h : byte.toNat < 0x80) :
    scanFrom none (byte :: rest) = some (Char.ofNat byte.toNat) :: scanFrom none rest := by
  rw [scanFrom_cons, step, start, if_pos h]
  rfl

theorem scanFrom_lead (h : 0x80 ≤ byte.toNat) (hlead : lead? byte = some started) :
    scanFrom none (byte :: rest) = scanFrom (some started) rest := by
  rw [scanFrom_cons, step, start, if_neg (Nat.not_lt.mpr h), hlead]
  rfl

/-- The bytes that spell a character. The second of three or four bytes is bounded further, so that
each character is spelled in one way, and no surrogate is. -/
inductive Spells : List UInt8 → Char → Prop
  | one {a : UInt8} (ha : a.toNat < 0x80) : Spells [a] (Char.ofNat a.toNat)
  | two {a b : UInt8} (ha : 0xC2 ≤ a.toNat ∧ a.toNat ≤ 0xDF) (hb : IsTail b) :
    Spells [a, b] (Char.ofNat (64 * (a.toNat - 0xC0) + (b.toNat - 0x80)))
  | three {a b c : UInt8} (ha : 0xE0 ≤ a.toNat ∧ a.toNat ≤ 0xEF)
    (hb : IsTail b ∧ (a.toNat = 0xE0 → 0xA0 ≤ b.toNat) ∧ (a.toNat = 0xED → b.toNat ≤ 0x9F))
    (hc : IsTail c) :
    Spells [a, b, c]
      (Char.ofNat (64 * (64 * (a.toNat - 0xE0) + (b.toNat - 0x80)) + (c.toNat - 0x80)))
  | four {a b c d : UInt8} (ha : 0xF0 ≤ a.toNat ∧ a.toNat ≤ 0xF4)
    (hb : IsTail b ∧ (a.toNat = 0xF0 → 0x90 ≤ b.toNat) ∧ (a.toNat = 0xF4 → b.toNat ≤ 0x8F))
    (hc : IsTail c) (hd : IsTail d) :
    Spells [a, b, c, d]
      (Char.ofNat (64 * (64 * (64 * (a.toNat - 0xF0) + (b.toNat - 0x80)) + (c.toNat - 0x80)) +
        (d.toNat - 0x80)))

variable {front : List UInt8} {char : Char}

/-- **Bytes that spell a character** are read as that character. -/
theorem Spells.scanFrom_append (h : Spells front char) (rest : List UInt8) :
    scanFrom none (front ++ rest) = some char :: scanFrom none rest := by
  cases h with
  | one ha => exact scanFrom_ascii ha
  | two ha hb =>
    refine (scanFrom_lead (by omega) (lead?_of_two ha)).trans ?_
    exact scanFrom_last (allows_iff_isTail.mpr hb) rfl
  | three ha hb hc =>
    refine (scanFrom_lead (by omega) (lead?_of_three ha)).trans ?_
    refine (scanFrom_next ((allows_second_iff (by decide) (by decide)).mpr hb)
      (Nat.succ_succ_ne_one 0)).trans ?_
    exact scanFrom_last (allows_iff_isTail.mpr hc) rfl
  | four ha hb hc hd =>
    refine (scanFrom_lead (by omega) (lead?_of_four ha)).trans ?_
    refine (scanFrom_next ((allows_second_iff (by decide) (by decide)).mpr hb)
      (Nat.succ_succ_ne_one 1)).trans ?_
    refine (scanFrom_next (allows_iff_isTail.mpr hc) (Nat.succ_succ_ne_one 0)).trans ?_
    exact scanFrom_last (allows_iff_isTail.mpr hd) rfl

/-- **Any bytes** begin with those of a character, or with some that leave a gap. -/
theorem scanFrom_none_cases (byte : UInt8) (bytes : List UInt8) :
    ∃ front rest, byte :: bytes = front ++ rest ∧
      ((∃ char, Spells front char) ∨
        front ≠ [] ∧ scanFrom none (byte :: bytes) = none :: scanFrom none rest) := by
  by_cases hone : byte.toNat < 0x80
  · exact ⟨[byte], bytes, rfl, .inl ⟨_, .one hone⟩⟩
  have hlead : 0x80 ≤ byte.toNat := Nat.not_lt.mp hone
  by_cases htwo : 0xC2 ≤ byte.toNat ∧ byte.toNat ≤ 0xDF
  · have hscan : scanFrom none (byte :: bytes) = scanFrom (some _) bytes :=
      scanFrom_lead hlead (lead?_of_two htwo)
    obtain ⟨second, rest, rfl, hsecond⟩ | hgap := goes_on_or_gap hscan
    · exact ⟨[byte, second], rest, rfl, .inl ⟨_, .two htwo (allows_iff_isTail.mp hsecond)⟩⟩
    · exact ⟨[byte], bytes, rfl, .inr ⟨nofun, hgap⟩⟩
  by_cases hthree : 0xE0 ≤ byte.toNat ∧ byte.toNat ≤ 0xEF
  · have hscan : scanFrom none (byte :: bytes) = scanFrom (some _) bytes :=
      scanFrom_lead hlead (lead?_of_three hthree)
    obtain ⟨second, rest, rfl, hsecond⟩ | hgap := goes_on_or_gap hscan
    · have hscan' := hscan.trans (scanFrom_next hsecond (Nat.succ_succ_ne_one 0))
      obtain ⟨third, rest, rfl, hthird⟩ | hgap := goes_on_or_gap hscan'
      · exact ⟨[byte, second, third], rest, rfl, .inl ⟨_, .three hthree
          ((allows_second_iff (by decide) (by decide)).mp hsecond) (allows_iff_isTail.mp hthird)⟩⟩
      · exact ⟨[byte, second], rest, rfl, .inr ⟨nofun, hgap⟩⟩
    · exact ⟨[byte], bytes, rfl, .inr ⟨nofun, hgap⟩⟩
  by_cases hfour : 0xF0 ≤ byte.toNat ∧ byte.toNat ≤ 0xF4
  · have hscan : scanFrom none (byte :: bytes) = scanFrom (some _) bytes :=
      scanFrom_lead hlead (lead?_of_four hfour)
    obtain ⟨second, rest, rfl, hsecond⟩ | hgap := goes_on_or_gap hscan
    · have hscan' := hscan.trans (scanFrom_next hsecond (Nat.succ_succ_ne_one 1))
      obtain ⟨third, rest, rfl, hthird⟩ | hgap := goes_on_or_gap hscan'
      · have hscan'' := hscan'.trans (scanFrom_next hthird (Nat.succ_succ_ne_one 0))
        obtain ⟨fourth, rest, rfl, hfourth⟩ | hgap := goes_on_or_gap hscan''
        · exact ⟨[byte, second, third, fourth], rest, rfl, .inl ⟨_, .four hfour
            ((allows_second_iff (by decide) (by decide)).mp hsecond)
            (allows_iff_isTail.mp hthird) (allows_iff_isTail.mp hfourth)⟩⟩
        · exact ⟨[byte, second, third], rest, rfl, .inr ⟨nofun, hgap⟩⟩
      · exact ⟨[byte, second], rest, rfl, .inr ⟨nofun, hgap⟩⟩
    · exact ⟨[byte], bytes, rfl, .inr ⟨nofun, hgap⟩⟩
  -- no character starts with this byte
  refine ⟨[byte], bytes, rfl, .inr ⟨nofun, ?_⟩⟩
  rw [scanFrom_cons, step, start, if_neg hone, lead?_eq_none htwo hthree hfour]
  rfl

/-- **Bytes without a gap** begin with those of a character. -/
theorem exists_spells (h : none ∉ scanFrom none (byte :: bytes)) :
    ∃ front rest char, byte :: bytes = front ++ rest ∧ Spells front char := by
  obtain ⟨front, rest, hsplit, ⟨char, hspells⟩ | ⟨-, hgap⟩⟩ := scanFrom_none_cases byte bytes
  · exact ⟨front, rest, char, hsplit, hspells⟩
  · rw [hgap] at h
    exact absurd List.mem_cons_self h

theorem val_ofNat {n : ℕ} (h : n.isValidChar) : (Char.ofNat n).val.toNat = n := by
  rw [Char.ofNat, dif_pos h]
  rfl

/-- **Only the bytes of a character** spell it. -/
theorem Spells.eq_utf8EncodeChar (h : Spells front char) :
    front = String.utf8EncodeChar char := by
  have hbyte : ∀ (byte : UInt8) {n : ℕ}, n = byte.toNat → UInt8.ofNat n = byte := by
    rintro byte n rfl
    exact UInt8.ofNat_toNat
  cases h with
  | @one a ha =>
    rw [String.utf8EncodeChar, val_ofNat (.inl (by omega))]
    rw [if_pos (by omega), UInt8.ofNat_toNat]
  | @two a b ha hb =>
    rw [IsTail] at hb
    rw [String.utf8EncodeChar, val_ofNat (.inl (by omega))]
    rw [if_neg (by omega), if_pos (by omega), hbyte a (by omega), hbyte b (by omega)]
  | @three a b c ha hb hc =>
    rw [IsTail] at hb hc
    rw [String.utf8EncodeChar, val_ofNat (by rw [Nat.isValidChar]; omega)]
    rw [if_neg (by omega), if_neg (by omega), if_pos (by omega), hbyte a (by omega),
      hbyte b (by omega), hbyte c (by omega)]
  | @four a b c d ha hb hc hd =>
    rw [IsTail] at hb hc hd
    rw [String.utf8EncodeChar, val_ofNat (by rw [Nat.isValidChar]; omega)]
    rw [if_neg (by omega), if_neg (by omega), if_neg (by omega), hbyte a (by omega),
      hbyte b (by omega), hbyte c (by omega), hbyte d (by omega)]

/-- The bytes of a character spell it. -/
theorem spells_utf8EncodeChar (char : Char) : Spells (String.utf8EncodeChar char) char := by
  have hvalid := char.valid
  rw [UInt32.isValidChar, Nat.isValidChar] at hvalid
  have hchar : Char.ofNat char.val.toNat = char := Char.ofNat_toNat char
  rw [String.utf8EncodeChar]
  generalize char.val.toNat = n at hvalid hchar
  subst hchar
  have hbyte : ∀ m < 256, ∃ byte : UInt8, UInt8.ofNat m = byte ∧ byte.toNat = m :=
    fun m hm => ⟨_, rfl, UInt8.toNat_ofNat_of_lt' hm⟩
  obtain ⟨d, hd, hd'⟩ := hbyte (n % 64 + 128) (by omega)
  obtain ⟨c, hc, hc'⟩ := hbyte (n / 64 % 64 + 128) (by omega)
  obtain ⟨b, hb, hb'⟩ := hbyte (n / 4096 % 64 + 128) (by omega)
  rw [hb, hc, hd]
  split_ifs with hone htwo hthree
  · obtain ⟨a, ha, ha'⟩ := hbyte n (by omega)
    rw [ha, ← ha']
    exact .one (by omega)
  · obtain ⟨a, ha, ha'⟩ := hbyte (n / 64 % 32 + 192) (by omega)
    rw [ha, show n = 64 * (a.toNat - 0xC0) + (d.toNat - 0x80) by omega]
    exact .two (by omega) (by rw [IsTail]; omega)
  · obtain ⟨a, ha, ha'⟩ := hbyte (n / 4096 % 16 + 224) (by omega)
    rw [ha, show n = 64 * (64 * (a.toNat - 0xE0) + (c.toNat - 0x80)) + (d.toNat - 0x80) by omega]
    exact .three (by omega) (by rw [IsTail]; omega) (by rw [IsTail]; omega)
  · obtain ⟨a, ha, ha'⟩ := hbyte (n / 262144 % 8 + 240) (by omega)
    rw [ha, show n = 64 * (64 * (64 * (a.toNat - 0xF0) + (b.toNat - 0x80)) + (c.toNat - 0x80)) +
      (d.toNat - 0x80) by omega]
    exact .four (by omega) (by rw [IsTail]; omega) (by rw [IsTail]; omega) (by rw [IsTail]; omega)

/-- Bytes are read as characters, without a gap, if they are the bytes of these characters. -/
theorem scan_eq_map_some_iff {chars : List Char} :
    scan bytes = chars.map some ↔ bytes = chars.flatMap String.utf8EncodeChar := by
  induction chars generalizing bytes with
  | nil =>
    cases bytes with
    | nil => exact iff_of_true rfl rfl
    | cons byte bytes =>
      refine iff_of_false (fun h => ?_) (List.cons_ne_nil _ _)
      rw [scan] at h
      have hgap : none ∉ scanFrom none (byte :: bytes) := by
        rw [h]
        exact List.not_mem_nil
      obtain ⟨front, rest, char, hsplit, hspells⟩ := exists_spells hgap
      rw [hsplit, hspells.scanFrom_append] at h
      cases h
  | cons char chars ih =>
    rw [List.flatMap_cons, List.map_cons, scan]
    constructor
    · intro h
      have hgap : none ∉ scanFrom none bytes := by
        rw [h]
        simp
      cases bytes with
      | nil => cases h
      | cons byte bytes =>
        obtain ⟨front, rest, char', hsplit, hspells⟩ := exists_spells hgap
        rw [hsplit, hspells.scanFrom_append, List.cons.injEq, Option.some.injEq] at h
        obtain ⟨rfl, hrest⟩ := h
        rw [hsplit, hspells.eq_utf8EncodeChar, ih.mp hrest]
    · rintro rfl
      rw [(spells_utf8EncodeChar char).scanFrom_append]
      exact congrArg (some char :: ·) (ih.mpr rfl)

theorem mapM_id_map_some (chars : List Char) : (chars.map some).mapM id = some chars := by
  induction chars with
  | nil => rfl
  | cons char chars ih =>
    rw [List.map_cons, List.mapM_cons, ih]
    rfl

/-- Characters are all there if there is no gap between them. -/
theorem mapM_id_eq_some_iff {read : List (Option Char)} {chars : List Char} :
    read.mapM id = some chars ↔ read = chars.map some := by
  constructor
  · intro h
    induction read generalizing chars with
    | nil =>
      cases h
      rfl
    | cons first read ih =>
      rw [List.mapM_cons] at h
      obtain ⟨char, hchar, h⟩ := Option.bind_eq_some_iff.mp h
      obtain ⟨others, hothers, h⟩ := Option.bind_eq_some_iff.mp h
      cases h
      rw [List.map_cons, ih hothers]
      exact congrArg (· :: others.map some) hchar
  · rintro rfl
    exact mapM_id_map_some chars

/-- **Bytes are read as a text** if they are its bytes. -/
theorem decode?_eq_some_iff {text : String} : decode? bytes = some text ↔ bytes = encode text := by
  rw [decode?, encode_eq_flatMap, ← scan_eq_map_some_iff, ← mapM_id_eq_some_iff,
    Option.map_eq_some_iff]
  constructor
  · rintro ⟨chars, hchars, rfl⟩
    rw [hchars, String.toList_ofList]
  · intro h
    exact ⟨text.toList, h, String.ofList_toList⟩

/-! ### Bytes that are no text -/

theorem Spells.ne_nil (h : Spells front char) : front ≠ [] := by
  rw [h.eq_utf8EncodeChar]
  exact String.utf8EncodeChar_ne_nil

/-- Of the bytes of a character the last is zero if the character is. -/
theorem Spells.getLast?_eq_zero_iff (h : Spells front char) :
    front.getLast? = some 0 ↔ char = '\x00' := by
  have htail : ∀ {byte : UInt8}, IsTail byte → byte ≠ 0 := by
    rintro byte hbyte rfl
    exact absurd hbyte.1 (by decide)
  constructor
  · intro hlast
    cases h with
    | one ha =>
      obtain rfl := Option.some.inj hlast
      rfl
    | two ha hb => exact absurd (Option.some.inj hlast) (htail hb)
    | three ha hb hc => exact absurd (Option.some.inj hlast) (htail hc)
    | four ha hb hc hd => exact absurd (Option.some.inj hlast) (htail hd)
  · rintro rfl
    rw [h.eq_utf8EncodeChar]
    rfl

/-- The bytes of a text end in zero if the text does. -/
theorem getLast?_encode (text : String) :
    (encode text).getLast? = some 0 ↔ text.toList.getLast? = some '\x00' := by
  rw [encode_eq_flatMap]
  obtain hnil | ⟨chars, char, hconcat⟩ := List.eq_nil_or_concat text.toList
  · rw [hnil]
    exact iff_of_false nofun nofun
  · have hspells := spells_utf8EncodeChar char
    rw [hconcat, List.concat_eq_append, List.flatMap_append, List.flatMap_singleton,
      List.getLast?_append_of_ne_nil _ hspells.ne_nil, hspells.getLast?_eq_zero_iff,
      List.getLast?_concat, Option.some_inj]

/-- The text that is read of the bytes of a text is that text. -/
theorem decodeLossy_encode (text : String) : decodeLossy (encode text) = text := by
  have hscan : scan (encode text) = text.toList.map some :=
    scan_eq_map_some_iff.mpr (encode_eq_flatMap text)
  rw [decodeLossy, hscan, List.map_map]
  exact (congrArg String.ofList (List.map_id _)).trans String.ofList_toList

/-- Some bytes at the front are read as one character or leave one gap; they end in zero if they are
read as zero. -/
theorem exists_scan_eq_cons (hne : bytes ≠ []) :
    ∃ front rest first, front ≠ [] ∧ bytes = front ++ rest ∧ scan bytes = first :: scan rest ∧
      (first = some '\x00' → front.getLast? = some 0) := by
  obtain ⟨byte, bytes, rfl⟩ := List.exists_cons_of_ne_nil hne
  obtain ⟨front, rest, hsplit, ⟨char, hspells⟩ | ⟨hfront, hgap⟩⟩ := scanFrom_none_cases byte bytes
  · refine ⟨front, rest, some char, hspells.ne_nil, hsplit, ?_, fun hzero => ?_⟩
    · rw [hsplit]
      exact hspells.scanFrom_append rest
    · exact hspells.getLast?_eq_zero_iff.mpr (Option.some.inj hzero)
  · exact ⟨front, rest, none, hfront, hsplit, hgap, nofun⟩

/-- Whatever bytes are read, zero is read last only of a last byte that is zero. -/
theorem getLast?_of_getLast?_scan (hlast : (scan bytes).getLast? = some (some '\x00')) :
    bytes.getLast? = some 0 := by
  induction hlength : bytes.length using Nat.strong_induction_on generalizing bytes with
  | _ n ih =>
  by_cases hne : bytes = []
  · obtain rfl := hne
    cases hlast
  obtain ⟨front, rest, first, hfront, rfl, hscan, hzero⟩ := exists_scan_eq_cons hne
  rw [hscan] at hlast
  by_cases hrest : rest = []
  · obtain rfl := hrest
    rw [List.append_nil]
    exact hzero (Option.some.inj hlast)
  · have hscanned : scan rest ≠ [] := by
      obtain ⟨_, _, _, -, -, hcons, -⟩ := exists_scan_eq_cons hrest
      rw [hcons]
      exact List.cons_ne_nil _ _
    have hshorter : rest.length < n := by
      have hpos := List.length_pos_of_ne_nil hfront
      rw [List.length_append] at hlength
      omega
    rw [List.getLast?_append_of_ne_nil _ hrest]
    refine ih rest.length hshorter ?_ rfl
    rwa [← List.singleton_append, List.getLast?_append_of_ne_nil _ hscanned] at hlast

/-- **A text that is read of bytes** ends in zero only if the bytes do, whether they are the bytes
of a text or not. -/
theorem getLast?_decodeLossy (hbytes : bytes.getLast? ≠ some 0) :
    (decodeLossy bytes).toList.getLast? ≠ some '\x00' := by
  intro hlast
  rw [decodeLossy, String.toList_ofList, List.getLast?_map] at hlast
  obtain ⟨read, hread, hchar⟩ := Option.map_eq_some_iff.mp hlast
  cases read with
  | none => exact absurd hchar (by decide)
  | some char =>
    obtain rfl : char = '\x00' := hchar
    exact hbytes (getLast?_of_getLast?_scan hread)

/-! ### Parts of a text -/

/-- What is started goes on with a byte that is no character of its own. -/
def Started.Continues (started : Started) : Prop :=
  0x80 ≤ started.least.toNat

theorem lead?_continues (hlead : lead? byte = some started) : started.Continues := by
  rw [lead?] at hlead
  split_ifs at hlead <;> obtain rfl := Option.some.inj hlead <;> simp [Started.Continues]

theorem start_continues (hstart : (start byte).2 = some started) : started.Continues := by
  rw [start] at hstart
  split at hstart
  · cases hstart
  · cases hlead : lead? byte with
    | none =>
      rw [hlead] at hstart
      cases hstart
    | some lead =>
      rw [hlead] at hstart
      cases hstart
      exact lead?_continues hlead

theorem step_continues {state : Option Started} (hstep : (step state byte).2 = some started) :
    started.Continues := by
  cases state with
  | none => exact start_continues hstep
  | some character =>
    rw [step] at hstep
    split at hstep
    · dsimp only at hstep
      split at hstep
      · cases hstep
      · obtain rfl := Option.some.inj hstep
        simp [Started.Continues]
    · exact start_continues hstep

/-- **A byte that is a character of its own** parts what is read before it from what is read behind
it. -/
theorem scanFrom_append_ascii (state : Option Started) (hbyte : byte.toNat < 0x80)
    (hstate : ∀ started, state = some started → started.Continues) (bytes rest : List UInt8) :
    scanFrom state (bytes ++ byte :: rest) =
      scanFrom state bytes ++ some (Char.ofNat byte.toNat) :: scanFrom none rest := by
  induction bytes generalizing state with
  | nil =>
    cases state with
    | none => exact scanFrom_ascii hbyte
    | some started =>
      have hleast : 0x80 ≤ started.least.toNat := hstate started rfl
      have hbelow : ¬ (started.least ≤ byte ∧ byte ≤ started.most) := by
        rw [UInt8.le_iff_toNat_le]
        omega
      rw [List.nil_append, scanFrom_cons, step, if_neg hbelow]
      exact congrArg (none :: ·) (scanFrom_ascii hbyte)
  | cons first bytes ih =>
    rw [List.cons_append, scanFrom_cons, scanFrom_cons, List.append_assoc,
      ih _ fun started => step_continues]

theorem decodeLossy_append_ascii (hbyte : byte.toNat < 0x80) (bytes rest : List UInt8) :
    decodeLossy (bytes ++ byte :: rest) =
      decodeLossy bytes ++ String.singleton (Char.ofNat byte.toNat) ++ decodeLossy rest := by
  have hparts := scanFrom_append_ascii none hbyte (by rintro _ ⟨⟩) bytes rest
  rw [decodeLossy, scan, hparts, List.map_append, List.map_cons, Option.getD_some,
    String.ofList_append, String.ofList_cons, String.append_assoc]
  rfl

end Modbus.Utf8
