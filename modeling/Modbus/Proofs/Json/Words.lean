import Mathlib.Data.List.Forall2
import Modbus.Json.Basic
import Modbus.Json.Token

/-!
# Words are read as they are written

What `Json.render` writes for a quoted text, a whole number, a name or a mark is read as that word
by `Token.scan`, whatever stands behind it (`Token.scan_quote`, `Token.scan_integer`). Only of a
number it matters what stands behind it, since a number goes on as long as it can
(`Numeral.EndsBefore`).

Every character of a quoted text is written so that it is read as one piece, itself or its number
(`Token.exists_scanQuoted_escape`), and such pieces spell the text again (`Token.spell?_of_spells`).
-/

namespace Modbus

/-! ### Quoted texts -/

namespace Token

/-- The piece stands for the character, as it is written or by its number. -/
inductive Piece.Spells : Piece → Char → Prop
  | char (c : Char) : Spells (.char c) c
  | unit (c : Char) (h : c.toNat < 0x20) : Spells (.unit c.toNat) c

/-- A unit that is no half of a surrogate pair stands for a character, whatever comes next. -/
theorem spell?_unit_cons {code : Nat} (h : code < 0xD800) (pieces : List Piece) :
    spell? (.unit code :: pieces) = (spell? pieces).map (Char.ofNat code :: ·) := by
  have hlead : isLead code = false := by
    rw [isLead, decide_eq_false (Nat.not_le.mpr h), Bool.false_and]
  have htrail : isTrail code = false := by
    rw [isTrail, decide_eq_false (by omega), Bool.false_and]
  match pieces with
  | [] => simp [spell?, hlead, htrail]
  | .char c :: pieces =>
    simp only [spell?, hlead, htrail]
    cases spell? pieces <;> rfl
  | .unit trail :: pieces =>
    rw [spell?, hlead, htrail]
    cases spell? (.unit trail :: pieces) <;> rfl

/-- Pieces that stand for characters one by one spell these. -/
theorem spell?_of_spells {pieces : List Piece} {text : List Char}
    (h : List.Forall₂ Piece.Spells pieces text) : spell? pieces = some text := by
  induction h with
  | nil => rfl
  | cons hpiece _ ih =>
    cases hpiece with
    | char c =>
      rw [spell?, ih]
      rfl
    | unit c hcontrol =>
      rw [spell?_unit_cons (by omega), ih, Option.map_some, Char.ofNat_toNat]

/-- The two digits of a control character spell its number. -/
theorem hexCode?_control : ∀ code < 0x20,
    hexCode? '0' '0' (Nat.digitChar (code / 16)) (Nat.digitChar (code % 16)) = some code := by
  decide

/-- A character that need not be escaped is read as it is. -/
theorem scanQuoted_cons {c : Char} {rest : List Char} {pieces : List Piece} {length : Nat}
    (hquote : c ≠ '"') (hslash : c ≠ '\\') (hprintable : ¬ c.toNat < 0x20)
    (h : scanQuoted rest = some (pieces, length)) :
    scanQuoted (c :: rest) = some (.char c :: pieces, length + 1) := by
  have hplain : ¬ (c = '\\' ∨ c.toNat < 0x20) := not_or.mpr ⟨hslash, hprintable⟩
  rw [scanQuoted.eq_def]
  split
  · contradiction
  · next heq => exact absurd (List.cons.inj heq).1 hquote
  · next heq => exact absurd (List.cons.inj heq).1 hslash
  · next heq => exact absurd (List.cons.inj heq).1 hslash
  · next heq =>
    cases heq
    rw [if_neg hplain, h]
    rfl

/-- A character that a letter behind a backslash stands for. -/
theorem scanQuoted_escaped {letter c : Char} {rest : List Char} {pieces : List Piece}
    {length : Nat} (hletter : letter ≠ 'u') (hescaped : escaped? letter = some c)
    (h : scanQuoted rest = some (pieces, length)) :
    scanQuoted ('\\' :: letter :: rest) = some (.char c :: pieces, length + 2) := by
  rw [scanQuoted, hescaped, h]
  · rfl
  · intro _ _ _ _ _ heq
    exact absurd heq hletter

/-- **A character is written** so that it is read as one piece. -/
theorem exists_scanQuoted_escape (c : Char) :
    ∃ piece : Piece, piece.Spells c ∧ ∀ {rest : List Char} {pieces : List Piece} {length : Nat},
      scanQuoted rest = some (pieces, length) →
        scanQuoted (Json.escape c ++ rest) =
          some (piece :: pieces, length + (Json.escape c).length) := by
  unfold Json.escape
  split
  case h_8 hquote hslash _ _ _ _ _ =>
    split
    · next hcontrol =>
      refine ⟨.unit c.toNat, .unit c hcontrol, fun h => ?_⟩
      rw [List.cons_append, List.cons_append, List.cons_append, List.cons_append, List.cons_append,
        List.cons_append, List.nil_append, scanQuoted, hexCode?_control _ hcontrol, h]
      rfl
    · next hprintable =>
      exact ⟨.char c, .char c, fun h => scanQuoted_cons hquote hslash hprintable h⟩
  all_goals exact ⟨.char _, .char _, fun h => scanQuoted_escaped (by decide) rfl h⟩

/-- A written text is read up to its closing quote. -/
theorem exists_scanQuoted_flatMap_escape (text rest : List Char) :
    ∃ pieces, List.Forall₂ Piece.Spells pieces text ∧
      scanQuoted (text.flatMap Json.escape ++ '"' :: rest) =
        some (pieces, (text.flatMap Json.escape).length + 1) := by
  induction text with
  | nil => exact ⟨[], .nil, rfl⟩
  | cons c text ih =>
    obtain ⟨pieces, hpieces, hscan⟩ := ih
    obtain ⟨piece, hpiece, hstep⟩ := exists_scanQuoted_escape c
    refine ⟨piece :: pieces, .cons hpiece hpieces, ?_⟩
    rw [List.flatMap_cons, List.append_assoc, hstep hscan, List.length_append]
    exact congrArg (fun length => some (piece :: pieces, length)) (by omega)

/-! ### Words -/

/-- The word in front of a text, and the words behind it. -/
theorem scan_of_next? {char : Char} {rest : List Char} {token : Token} {length : Nat}
    (hblank : isBlank char = false) (h : next? char rest = some (token, length)) :
    scan (char :: rest) = token :: scan (rest.drop length) := by
  rw [scan, hblank, h]
  rfl

/-- A character that is a word by itself. -/
theorem scan_mark (char : Char) (token : Token) (hblank : isBlank char = false)
    (h : mark? char = some token) (rest : List Char) :
    scan (char :: rest) = token :: scan rest := by
  have hnext : next? char rest = some (token, 0) := by rw [next?, h]
  exact scan_of_next? hblank hnext

theorem scan_null (rest : List Char) :
    scan ('n' :: 'u' :: 'l' :: 'l' :: rest) = null :: scan rest := by
  have hnext : next? 'n' ('u' :: 'l' :: 'l' :: rest) = some (null, 3) := rfl
  exact scan_of_next? rfl hnext

theorem scan_true (rest : List Char) :
    scan ('t' :: 'r' :: 'u' :: 'e' :: rest) = bool true :: scan rest := by
  have hnext : next? 't' ('r' :: 'u' :: 'e' :: rest) = some (bool true, 3) := rfl
  exact scan_of_next? rfl hnext

theorem scan_false (rest : List Char) :
    scan ('f' :: 'a' :: 'l' :: 's' :: 'e' :: rest) = bool false :: scan rest := by
  have hnext : next? 'f' ('a' :: 'l' :: 's' :: 'e' :: rest) = some (bool false, 4) := rfl
  exact scan_of_next? rfl hnext

/-- A quote starts a quoted text. -/
theorem next?_quote (rest : List Char) :
    next? '"' rest = (scanQuoted rest).map fun (pieces, length) =>
      (text ((spell? pieces).map String.ofList), length) := rfl

/-- **A quoted text** is read as it is written. -/
theorem scan_quote (s : String) (rest : List Char) :
    scan (Json.quote s ++ rest) = text (some s) :: scan rest := by
  obtain ⟨pieces, hpieces, hscan⟩ := exists_scanQuoted_flatMap_escape s.toList rest
  have hnext : next? '"' (s.toList.flatMap Json.escape ++ '"' :: rest) =
      some (text (some s), (s.toList.flatMap Json.escape).length + 1) := by
    rw [next?_quote, hscan, Option.map_some]
    simp only [spell?_of_spells hpieces, Option.map_some, String.ofList_toList]
  rw [Json.quote, List.cons_append, List.cons_append, List.append_assoc, List.singleton_append,
    scan_of_next? rfl hnext, List.drop_append, List.drop_of_length_le (by omega)]
  simp

end Token

/-! ### Whole numbers -/

namespace Numeral

/-- No number goes on here. -/
def EndsBefore (rest : List Char) : Prop :=
  ∀ c ∈ rest.head?, c.isDigit = false ∧ c ≠ '.' ∧ c ≠ 'e' ∧ c ≠ 'E'

variable {rest : List Char}

/-- Only zero is written with a zero in front. -/
theorem eq_zero_of_head?_toDigits {n : Nat} (h : (Nat.toDigits 10 n).head? = some '0') :
    n = 0 := by
  induction n using Nat.strongRecOn with
  | ind n ih =>
    by_cases hlt : n < 10
    · rw [Nat.toDigits_of_lt_base hlt, List.head?_cons] at h
      exact Nat.digitChar_eq_zero.mp (Option.some.inj h)
    · have hle : 10 ≤ n := Nat.not_lt.mp hlt
      rw [Nat.toDigits_of_base_le (by decide) hle,
        List.head?_append_of_ne_nil _ Nat.toDigits_ne_nil] at h
      have hdiv := ih (n / 10) (by omega) h
      omega

/-- The digits of a number are those that it is written with. -/
theorem digits_toDigits (n : Nat) (hrest : EndsBefore rest) :
    digits (Nat.toDigits 10 n ++ rest) = Nat.toDigits 10 n := by
  have hdigits : ∀ c ∈ Nat.toDigits 10 n, c.isDigit = true := fun c hmem =>
    Nat.isDigit_of_mem_toDigits (by decide) (by decide) hmem
  rw [digits, List.takeWhile_append_of_pos hdigits]
  cases rest with
  | nil => rw [List.takeWhile_nil, List.append_nil]
  | cons c rest =>
    obtain ⟨hdigit, -⟩ := hrest c rfl
    rw [List.takeWhile_cons_of_neg (by rw [hdigit]; exact Bool.false_ne_true), List.append_nil]

theorem scanFraction_of_endsBefore (hrest : EndsBefore rest) : scanFraction rest = some none := by
  rw [scanFraction.eq_def]
  split
  · obtain ⟨-, hpoint, -⟩ := hrest '.' rfl
    exact absurd rfl hpoint
  · rfl

theorem scanExponent_of_endsBefore (hrest : EndsBefore rest) : scanExponent rest = some none := by
  cases rest with
  | nil => rfl
  | cons c rest =>
    obtain ⟨-, -, he, hE⟩ := hrest c rfl
    rw [scanExponent, if_neg (not_or.mpr ⟨he, hE⟩)]

/-- The digits of a number are read up to where it ends, behind a sign if there is one. -/
theorem scan?_digits {text : List Char} {n : Nat} (hrest : EndsBefore rest)
    (htext : (if text.head? = some '-' then text.drop 1 else text) = Nat.toDigits 10 n ++ rest) :
    scan? text =
      some {
        negative := text.head? = some '-'
        whole := Nat.toDigits 10 n
        fraction := none
        exponent := none } := by
  have hzero : ¬ ((Nat.toDigits 10 n).isEmpty = true ∨
      (Nat.toDigits 10 n).head? = some '0' ∧ 1 < (Nat.toDigits 10 n).length) := by
    rintro (hempty | ⟨hhead, hlength⟩)
    · exact Nat.toDigits_ne_nil (List.isEmpty_iff.mp hempty)
    · rw [eq_zero_of_head?_toDigits hhead, Nat.toDigits_zero] at hlength
      exact absurd hlength (by decide)
  simp only [scan?, htext]
  rw [digits_toDigits n hrest, if_neg hzero, List.drop_left, scanFraction_of_endsBefore hrest,
    Option.bind_eq_bind, Option.bind_some]
  simp only
  rw [scanExponent_of_endsBefore hrest]
  rfl

/-- A whole number as it is written. -/
def ofInt (n : Int) : Numeral :=
  { negative := n < 0, whole := Nat.toDigits 10 n.natAbs, fraction := none, exponent := none }

/-- A whole number is written as its sign and its digits. -/
theorem toList_text (n : Int) :
    (Number.integer n).text.toList = (if n < 0 then ['-'] else []) ++ Nat.toDigits 10 n.natAbs := by
  cases n with
  | ofNat n =>
    have hsign : ¬ Int.ofNat n < 0 := Int.not_lt.mpr (Int.natCast_nonneg n)
    rw [if_neg hsign]
    exact Nat.toList_repr
  | negSucc n =>
    rw [if_pos (Int.negSucc_lt_zero n)]
    show ("-" ++ Nat.repr (n + 1)).toList = _
    rw [String.toList_append, Nat.toList_repr]
    rfl

theorem length_ofInt (n : Int) : (ofInt n).length = (Number.integer n).text.toList.length := by
  rw [toList_text, List.length_append, length, ofInt]
  by_cases hneg : n < 0 <;> simp [hneg]

/-- A whole number begins with its sign or with a digit. -/
theorem exists_toList_text (n : Int) :
    ∃ c text, (Number.integer n).text.toList = c :: text ∧ (c = '-' ∨ c.isDigit = true) := by
  rw [toList_text]
  split
  · exact ⟨'-', _, rfl, .inl rfl⟩
  · have hne : Nat.toDigits 10 n.natAbs ≠ [] := Nat.toDigits_ne_nil
    obtain ⟨c, text, htext⟩ := List.exists_cons_of_ne_nil hne
    have hmem : c ∈ Nat.toDigits 10 n.natAbs := by
      rw [htext]
      exact List.mem_cons_self
    exact ⟨c, text, htext, .inr (Nat.isDigit_of_mem_toDigits (by decide) (by decide) hmem)⟩

/-- **A whole number** is read up to where it ends. -/
theorem scan?_text (n : Int) (hrest : EndsBefore rest) :
    scan? ((Number.integer n).text.toList ++ rest) = some (ofInt n) := by
  rw [toList_text, ofInt, List.append_assoc]
  by_cases hneg : n < 0
  · rw [if_pos hneg, decide_eq_true hneg]
    exact scan?_digits hrest rfl
  · have hhead : ¬ (Nat.toDigits 10 n.natAbs ++ rest).head? = some '-' := by
      rw [List.head?_append_of_ne_nil _ Nat.toDigits_ne_nil]
      intro hminus
      have hdigit := Nat.isDigit_of_mem_toDigits (by decide) (by decide) (List.mem_of_head? hminus)
      exact absurd hdigit (by decide)
    rw [if_neg hneg, List.nil_append, scan?_digits hrest (if_neg hhead), decide_eq_false hhead,
      decide_eq_false hneg]

/-- Digits of a number that fits 64 bits are taken in as a whole. -/
theorem absorb_eq {digits : List Char} {number : Nat}
    (h : Nat.ofDigitChars 10 digits number < wordLimit) :
    absorb number digits = (Nat.ofDigitChars 10 digits number, []) := by
  induction digits generalizing number with
  | nil => rfl
  | cons digit digits ih =>
    rw [Nat.ofDigitChars_cons] at h ⊢
    have hle : 10 * number + digitValue digit ≤
        Nat.ofDigitChars 10 digits (10 * number + digitValue digit) := by
      rw [Nat.ofDigitChars_eq_ofDigitChars_zero]
      exact Nat.le_add_right_of_le (Nat.le_mul_of_pos_left _ (Nat.pow_pos (by decide)))
    rw [absorb]
    exact (if_pos (Nat.lt_of_le_of_lt hle h)).trans (ih h)

/-- A document holds the whole number as such. -/
def Fits (n : Int) : Prop :=
  -(wordLimit / 2 : Nat) ≤ n ∧ n < wordLimit

theorem fits_natCast {n : Nat} (h : n < wordLimit) : Fits n :=
  ⟨Int.le_trans (Int.neg_nonpos_of_nonneg (Int.natCast_nonneg _)) (Int.natCast_nonneg n),
    Int.ofNat_lt.mpr h⟩

/-- A whole number of 64 bits stays whole. -/
theorem value_ofInt {n : Int} (h : Fits n) : (ofInt n).value = some (.integer n) := by
  obtain ⟨hleast, hmost⟩ := h
  have hvalue : Nat.ofDigitChars 10 (Nat.toDigits 10 n.natAbs) 0 = n.natAbs :=
    Nat.ofDigitChars_toDigits (by decide) (by decide)
  have habsorb : absorb 0 (Nat.toDigits 10 n.natAbs) = (n.natAbs, []) := by
    rw [absorb_eq, hvalue]
    rw [hvalue]
    omega
  rw [value, ofInt]
  simp only [habsorb]
  rw [if_pos (by decide)]
  by_cases hneg : n < 0
  · have hinteger : ¬ (n.natAbs = 0 ∨ wordLimit / 2 < n.natAbs) := by omega
    rw [decide_eq_true hneg, if_neg (by decide), if_neg hinteger, 
      Int.ofNat_natAbs_of_nonpos (Int.le_of_lt hneg), Int.neg_neg]
  · rw [decide_eq_false hneg, if_pos (by decide), Int.natAbs_of_nonneg (Int.not_lt.mp hneg)]

end Numeral

namespace Token

/-- A sign or a digit starts a number. -/
theorem next?_of_isDigit {c : Char} (h : c = '-' ∨ c.isDigit = true) (rest : List Char) :
    next? c rest = (Numeral.scan? (c :: rest)).map fun numeral =>
      (number numeral.value, numeral.length - 1) := by
  have hmark : mark? c = none := by
    unfold mark?
    split <;> first | rfl | exact absurd h (by decide)
  have hname : name? c = none := by
    unfold name?
    split <;> first | rfl | exact absurd h (by decide)
  have hquote : c ≠ '"' := by
    rintro rfl
    exact absurd h (by decide)
  rw [next?, hmark, hname]
  exact if_neg hquote

/-- **A whole number** of 64 bits is read as it is written. -/
theorem scan_integer {n : Int} (h : Numeral.Fits n) {rest : List Char}
    (hrest : Numeral.EndsBefore rest) :
    scan ((Number.integer n).text.toList ++ rest) = number (some (.integer n)) :: scan rest := by
  obtain ⟨c, text, htext, hfirst⟩ := Numeral.exists_toList_text n
  have hblank : isBlank c = false := by
    rw [Bool.eq_false_iff]
    intro hblank
    simp only [isBlank, Bool.or_eq_true, decide_eq_true_eq] at hblank
    obtain ((rfl | rfl) | rfl) | rfl := hblank <;> exact absurd hfirst (by decide)
  have hscan := Numeral.scan?_text n hrest
  have hlength := Numeral.length_ofInt n
  rw [htext, List.cons_append] at hscan
  rw [htext, List.length_cons] at hlength
  have hnext : next? c (text ++ rest) = some (number (some (.integer n)), text.length) := by
    rw [next?_of_isDigit hfirst, hscan, Option.map_some, Numeral.value_ofInt h, hlength]
    rfl
  rw [htext, List.cons_append, scan_of_next? hblank hnext, List.drop_left]

end Token

end Modbus
