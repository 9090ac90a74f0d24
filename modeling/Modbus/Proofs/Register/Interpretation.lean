import Mathlib.Algebra.Group.Nat.Defs
import Mathlib.Data.List.Forall2
import Mathlib.Data.List.Induction
import Modbus.Register.Reading

/-!
# Which readings mean something

Whether words can be interpreted is a matter of the descriptor and of how many they are, not of what
they are: `Descriptor.Interprets` says it of the words that the register has
(`Descriptor.interprets_iff`). One or two words make the number that they spell in base `2 ^ 16`
(`Value.compose_eq`), as each is shifted in behind those before it. A list of readings is then
interpreted as a whole, reading by reading (`Reading.exists_measurements`).
-/

namespace Modbus

/-- The format of the register can interpret as many words as it has: bytes and text are made of any
number, and numbers of one or two. -/
def Descriptor.Interprets (descriptor : Descriptor) : Prop :=
  match descriptor.format with
  | .hex | .string => True
  | .integer | .flags => descriptor.length.toNat = 1 ∨ descriptor.length.toNat = 2
  | .float =>
    (descriptor.length.toNat = 1 ∨ descriptor.length.toNat = 2) ∧
      descriptor.precision.toNat < Descriptor.precisionLimit

/-! ### Words as a number -/

namespace Value

/-- The number that words spell in base `2 ^ 16`. -/
def numberOf (words : List UInt16) : Nat :=
  words.foldl (fun n word => 65536 * n + word.toNat) 0

theorem numberOf_concat (words : List UInt16) (word : UInt16) :
    numberOf (words ++ [word]) = 65536 * numberOf words + word.toNat :=
  List.foldl_concat ..

/-- A number of base `2 ^ 16` has as many bits as its words. -/
theorem numberOf_lt_pow (words : List UInt16) : numberOf words < 65536 ^ words.length := by
  induction words using List.reverseRecOn with
  | nil => exact Nat.one_pos
  | append_singleton words word ih =>
    have hword := word.toNat_lt
    rw [numberOf_concat, List.length_append, List.length_singleton, Nat.pow_succ]
    omega

/-- One or two words make a number of 32 bits. -/
theorem numberOf_lt {words : List UInt16} (h : words.length = 1 ∨ words.length = 2) :
    numberOf words < 2 ^ 32 := by
  refine Nat.lt_of_lt_of_le (numberOf_lt_pow words) ?_
  rcases h with h | h <;> rw [h] <;> decide

/-- **Shifting words in** one after the other makes the same number. -/
theorem ofNat_numberOf_eq_shifts (words : List UInt16) :
    UInt32.ofNat (numberOf words) =
      words.foldl (fun (bits : UInt32) (word : UInt16) => bits <<< 16 ||| word.toUInt32) 0 := by
  induction words using List.reverseRecOn with
  | nil => rfl
  | append_singleton words word ih =>
    have hword : word.toNat < 2 ^ 16 := word.toNat_lt
    rw [List.foldl_concat, ← ih]
    refine UInt32.toNat_inj.mp ?_
    -- the bits that the shift makes room for are zero, so they are filled by an addition
    have hshift : (UInt32.ofNat (numberOf words) <<< 16).toNat =
        (numberOf words % 2 ^ 16) <<< 16 := by
      have hamount : UInt32.toNat 16 % 32 = 16 := rfl
      rw [UInt32.toNat_shiftLeft, UInt32.toNat_ofNat', hamount, Nat.shiftLeft_eq, Nat.shiftLeft_eq]
      omega
    rw [UInt32.toNat_or, hshift, UInt16.toNat_toUInt32, ← Nat.shiftLeft_add_eq_or_of_lt hword,
      UInt32.toNat_ofNat', numberOf_concat, Nat.shiftLeft_eq]
    omega

/-- One or two words make the number that they spell. -/
theorem compose_eq {words : List UInt16} (hcount : words.length = 1 ∨ words.length = 2) :
    compose words = .ok (UInt32.ofNat (numberOf words)) := by
  rw [compose, if_pos hcount, ofNat_numberOf_eq_shifts]

/-- One or two words make a number, and no others do. -/
theorem exists_compose_iff {words : List UInt16} :
    (∃ n, compose words = .ok n) ↔ words.length = 1 ∨ words.length = 2 := by
  rw [compose]
  split
  · next hcount => exact iff_of_true ⟨_, rfl⟩ hcount
  · next hcount => exact iff_of_false (by rintro ⟨n, ⟨⟩⟩) hcount

end Value

/-! ### Outcomes -/

/-- What goes on after an outcome succeeds if both succeed, one after the other. -/
theorem bind_eq_ok_iff {ε α β : Type} {outcome : Except ε α} {next : α → Except ε β} {b : β} :
    (outcome >>= next) = .ok b ↔ ∃ a, outcome = .ok a ∧ next a = .ok b := by
  cases outcome with
  | error e => exact iff_of_false (by rintro ⟨⟩) (by rintro ⟨a, ⟨⟩, -⟩)
  | ok a =>
    constructor
    · intro h
      exact ⟨a, rfl, h⟩
    · rintro ⟨_, ⟨⟩, h⟩
      exact h

theorem mapError_eq_ok_iff {ε ε' α : Type} {outcome : Except ε α} {f : ε → ε'} {a : α} :
    outcome.mapError f = .ok a ↔ outcome = .ok a := by
  cases outcome <;> simp [Except.mapError]

/-- What fails of two steps fails as it would of one. -/
theorem mapError_bind {ε ε' α β : Type} (outcome : Except ε α) (next : α → Except ε β)
    (f : ε → ε') :
    (outcome >>= next).mapError f = outcome.mapError f >>= fun a => (next a).mapError f := by
  cases outcome <;> rfl

theorem mapError_pure {ε ε' α : Type} (a : α) (f : ε → ε') :
    (pure a : Except ε α).mapError f = pure a := rfl

/-- What is made of an outcome is there if the outcome is. -/
theorem exists_bind_pure_eq_ok_iff {ε α β : Type} {outcome : Except ε α} {f : α → β} :
    (∃ b, (do let a ← outcome; return f a : Except ε β) = .ok b) ↔ ∃ a, outcome = .ok a := by
  cases outcome with
  | error e => exact iff_of_false (by rintro ⟨b, ⟨⟩⟩) (by rintro ⟨a, ⟨⟩⟩)
  | ok a => exact iff_of_true ⟨f a, rfl⟩ ⟨a, rfl⟩

/-- What succeeds for every item of a list succeeds for the list, item by item. -/
theorem exists_mapM_eq_ok {ε α β : Type} {f : α → Except ε β} {R : α → β → Prop} {items : List α}
    (h : ∀ a ∈ items, ∃ b, f a = .ok b ∧ R a b) :
    ∃ results, items.mapM f = .ok results ∧ List.Forall₂ R items results := by
  induction items with
  | nil => exact ⟨[], rfl, .nil⟩
  | cons a items ih =>
    obtain ⟨hfirst, hrest⟩ := List.forall_mem_cons.mp h
    obtain ⟨b, hb, hab⟩ := hfirst
    obtain ⟨results, hresults, hall⟩ := ih hrest
    refine ⟨b :: results, ?_, .cons hab hall⟩
    rw [List.mapM_cons, hb, hresults]
    rfl

/-! ### Descriptors and their words -/

namespace Descriptor

theorem exists_ofWords_iff {descriptor : Descriptor} {words : List UInt16}
    (hlength : words.length = descriptor.length.toNat) :
    (∃ value, Value.ofWords descriptor words = .ok value) ↔ descriptor.Interprets := by
  rw [Value.ofWords, if_neg (by simp [hlength]), Interprets]
  cases descriptor.format with
  | hex => exact iff_of_true ⟨_, rfl⟩ trivial
  | string => exact iff_of_true ⟨_, rfl⟩ trivial
  | integer =>
    rw [exists_bind_pure_eq_ok_iff, Value.exists_compose_iff, hlength]
  | flags =>
    rw [exists_bind_pure_eq_ok_iff, Value.exists_compose_iff, hlength]
  | float =>
    by_cases hprecision : precisionLimit ≤ descriptor.precision.toNat
    · simp only [if_pos hprecision]
      refine iff_of_false (by rintro ⟨value, ⟨⟩⟩) ?_
      rintro ⟨-, hlt⟩
      exact Nat.not_lt.mpr hprecision hlt
    · simp only [if_neg hprecision]
      rw [and_iff_left (Nat.lt_of_not_le hprecision), ← hlength, ← Value.exists_compose_iff]
      exact exists_bind_pure_eq_ok_iff

/-- A value has the format of the descriptor under which it was found. -/
theorem format_eq_of_ofWords {descriptor : Descriptor} {words : List UInt16} {value : Value}
    (h : Value.ofWords descriptor words = .ok value) : value.format = descriptor.format := by
  rw [Value.ofWords] at h
  split at h
  · cases h
  cases hformat : descriptor.format <;> simp only [hformat] at h
  case hex | string =>
    cases h
    rfl
  case integer | flags =>
    cases hcompose : Value.compose words <;> rw [hcompose] at h <;> cases h
    rfl
  case float =>
    split at h
    · cases h
    cases hcompose : Value.compose words <;> rw [hcompose] at h <;> cases h
    rfl

/-- **Which descriptors interpret**: those under which all words of the right number mean
something. -/
theorem interprets_iff {descriptor : Descriptor} :
    descriptor.Interprets ↔
      ∀ words : List UInt16, words.length = descriptor.length.toNat →
        ∃ value, Value.ofWords descriptor words = .ok value := by
  constructor
  · intro h words hlength
    exact (exists_ofWords_iff hlength).mpr h
  · intro h
    have hlength : (List.replicate descriptor.length.toNat (0 : UInt16)).length =
        descriptor.length.toNat := List.length_replicate
    exact (exists_ofWords_iff hlength).mp (h _ hlength)

end Descriptor

/-- A measurement is the value of the words, with the time. -/
theorem Measurement.ofWords_eq_ok_iff {descriptor : Descriptor} {words : List UInt16}
    {time : UInt32} {value : Value} :
    ofWords descriptor words time = .ok { time, value } ↔
      Value.ofWords descriptor words = .ok value := by
  rw [ofWords, bind_eq_ok_iff]
  constructor
  · rintro ⟨_, hvalue, ⟨⟩⟩
    exact hvalue
  · intro hvalue
    exact ⟨_, hvalue, rfl⟩

namespace Reading

/-- The words of a reading are those of a register. -/
structure IsOf (descriptor : Descriptor) (reading : Reading) : Prop where
  descriptor_eq : reading.descriptor = descriptor
  length_words : reading.words.length = descriptor.length.toNat

/-- What a reading means under a descriptor, and when it was read. -/
def Means (descriptor : Descriptor) (reading : Reading) (measurement : Measurement) : Prop :=
  measurement.time = reading.time ∧ Value.ofWords descriptor reading.words = .ok measurement.value

theorem IsOf.exists_measurement {descriptor : Descriptor} {reading : Reading}
    (h : reading.IsOf descriptor) (hinterprets : descriptor.Interprets) :
    ∃ measurement, reading.measurement = .ok measurement ∧
      reading.Means descriptor measurement := by
  obtain ⟨value, hvalue⟩ := Descriptor.interprets_iff.mp hinterprets _ h.length_words
  refine ⟨{ time := reading.time, value }, ?_, rfl, hvalue⟩
  rw [measurement, Measurement.ofWords, h.descriptor_eq, hvalue]
  rfl

/-- **Readings are interpreted one by one**, in their order. -/
theorem exists_measurements {descriptor : Descriptor} (hinterprets : descriptor.Interprets)
    {readings : List Reading} (h : ∀ reading ∈ readings, reading.IsOf descriptor) :
    ∃ measurements, readings.mapM measurement = .ok measurements ∧
      List.Forall₂ (Means descriptor) readings measurements :=
  exists_mapM_eq_ok fun reading hmem => (h reading hmem).exists_measurement hinterprets

end Reading

end Modbus
