/-!
# Tables

A `Table` holds one value per key, in ascending order of the keys. Keys are things that can be
numbered, such as register addresses. Two tables with the same values under the same keys are equal
(`Table.ext_find?`), whatever the order in which these were put in.
-/

namespace Modbus

/-- Things with a number of their own. -/
class Numbered (κ : Type) where
  number : κ → Nat
  number_inj : ∀ {a b : κ}, number a = number b → a = b

export Numbered (number)

instance : Numbered UInt16 where
  number key := key.toNat
  number_inj := UInt16.toNat_inj.mp

variable {κ α : Type} [Numbered κ]

/-- The entries are in ascending order of their keys, and no key has two of them. -/
def Ascending (entries : List (κ × α)) : Prop :=
  entries.Pairwise fun first second => number first.1 < number second.1

/-- One value per key, in ascending order of the keys. -/
structure Table (κ α : Type) [Numbered κ] where
  entries : List (κ × α) := []
  ascending : Ascending entries := by exact List.Pairwise.nil

namespace Table

/-! ### Looking up -/

/-- The value under a key in a list of entries. -/
def lookup (key : κ) : List (κ × α) → Option α
  | [] => none
  | (other, value) :: entries =>
    if number key = number other then some value else lookup key entries

/-- The value under a key. -/
def find? (table : Table κ α) (key : κ) : Option α :=
  lookup key table.entries

/-- The keys, in ascending order. -/
def keys (table : Table κ α) : List κ :=
  table.entries.map Prod.fst

/-- The values, in the order of their keys. -/
def values (table : Table κ α) : List α :=
  table.entries.map Prod.snd

/-- How many entries there are. -/
def size (table : Table κ α) : Nat :=
  table.entries.length

/-! ### Putting in -/

/-- Entries with one more; the value of a key that is already there is replaced. -/
def insertEntry (key : κ) (value : α) : List (κ × α) → List (κ × α)
  | [] => [(key, value)]
  | (other, held) :: entries =>
    -- here the key belongs in front of a greater one
    if number key < number other then (key, value) :: (other, held) :: entries
    else if number key = number other then (key, value) :: entries
    else (other, held) :: insertEntry key value entries

theorem mem_insertEntry {key : κ} {value : α} {entries : List (κ × α)} {entry : κ × α}
    (h : entry ∈ insertEntry key value entries) : entry = (key, value) ∨ entry ∈ entries := by
  induction entries with
  | nil => simpa [insertEntry] using h
  | cons first entries ih =>
    obtain ⟨other, held⟩ := first
    unfold insertEntry at h
    split at h
    · simpa using h
    · split at h
      · rcases List.mem_cons.mp h with h | h
        · exact .inl h
        · exact .inr (List.mem_cons_of_mem _ h)
      · rcases List.mem_cons.mp h with h | h
        · exact .inr (h ▸ List.mem_cons_self)
        · exact (ih h).imp_right (List.mem_cons_of_mem _)

theorem ascending_insertEntry (key : κ) (value : α) {entries : List (κ × α)}
    (h : Ascending entries) : Ascending (insertEntry key value entries) := by
  induction entries with
  | nil => exact List.pairwise_singleton _ _
  | cons first entries ih =>
    obtain ⟨other, held⟩ := first
    have ⟨hfirst, hrest⟩ := List.pairwise_cons.mp h
    unfold insertEntry
    split
    · next hlt =>
      refine List.pairwise_cons.mpr ⟨fun entry hentry => ?_, h⟩
      rcases List.mem_cons.mp hentry with rfl | hentry
      · exact hlt
      · exact Nat.lt_trans hlt (hfirst entry hentry)
    · split
      · next heq =>
        exact List.pairwise_cons.mpr ⟨fun entry hentry => heq ▸ hfirst entry hentry, hrest⟩
      · refine List.pairwise_cons.mpr ⟨fun entry hentry => ?_, ih hrest⟩
        rcases mem_insertEntry hentry with rfl | hentry
        · show number other < number key
          omega
        · exact hfirst entry hentry

/-- The table with a value under a key. -/
def insert (table : Table κ α) (key : κ) (value : α) : Table κ α where
  entries := insertEntry key value table.entries
  ascending := ascending_insertEntry key value table.ascending

theorem lookup_eq_none_of_lt {key : κ} {entries : List (κ × α)}
    (h : ∀ entry ∈ entries, number key < number entry.1) : lookup key entries = none := by
  induction entries with
  | nil => rfl
  | cons first entries ih =>
    have hfirst := h first List.mem_cons_self
    rw [lookup, if_neg (by omega)]
    exact ih fun entry hentry => h entry (List.mem_cons_of_mem _ hentry)

theorem lookup_insertEntry (key : κ) (value : α) (entries : List (κ × α)) (other : κ) :
    lookup other (insertEntry key value entries) =
      if number other = number key then some value else lookup other entries := by
  induction entries with
  | nil => simp [insertEntry, lookup]
  | cons first entries ih =>
    obtain ⟨held, content⟩ := first
    unfold insertEntry
    split
    · simp [lookup]
    · split
      · simp only [lookup]
        split
        · rfl
        · rw [if_neg (by omega)]
      · simp only [lookup, ih]
        split
        · rw [if_neg (by omega)]
        · rfl

@[simp] theorem find?_empty (key : κ) : ({} : Table κ α).find? key = none := rfl

/-- A value is found under its key, and all others are found as before. -/
theorem find?_insert (table : Table κ α) (key : κ) (value : α) (other : κ) :
    (table.insert key value).find? other =
      if number other = number key then some value else table.find? other :=
  lookup_insertEntry key value table.entries other

/-- A value is found exactly if it is an entry with its key. -/
theorem find?_eq_some_iff {table : Table κ α} {key : κ} {value : α} :
    table.find? key = some value ↔ (key, value) ∈ table.entries := by
  obtain ⟨entries, h⟩ := table
  show lookup key entries = some value ↔ (key, value) ∈ entries
  induction entries with
  | nil => simp [lookup]
  | cons first entries ih =>
    obtain ⟨other, held⟩ := first
    have ⟨hfirst, hrest⟩ := List.pairwise_cons.mp h
    unfold lookup
    split
    · next heq =>
      obtain rfl := Numbered.number_inj heq
      constructor
      · rintro h; cases h; exact List.mem_cons_self
      · intro hmem
        rcases List.mem_cons.mp hmem with h | hmem
        · cases h; rfl
        · exact absurd (hfirst _ hmem) (Nat.lt_irrefl _)
    · next hne =>
      rw [ih hrest, List.mem_cons]
      constructor
      · exact .inr
      · rintro (h | h)
        · cases h; exact absurd rfl hne
        · exact h

/-- Ascending entries are determined by what is found under each key. -/
theorem entries_eq_of_lookup_eq {first second : List (κ × α)} (hf : Ascending first)
    (hs : Ascending second) (h : ∀ key, lookup key first = lookup key second) :
    first = second := by
  induction first generalizing second with
  | nil =>
    cases second with
    | nil => rfl
    | cons entry second => simpa [lookup] using h entry.1
  | cons a first ih =>
    cases second with
    | nil => simpa [lookup] using h a.1
    | cons b second =>
      have ⟨ha, hf'⟩ := List.pairwise_cons.mp hf
      have ⟨hb, hs'⟩ := List.pairwise_cons.mp hs
      have hab : number a.1 = number b.1 := by
        rcases Nat.lt_trichotomy (number a.1) (number b.1) with hlt | heq | hlt
        · have := h a.1
          rw [lookup, if_pos rfl, lookup, if_neg (by omega),
            lookup_eq_none_of_lt fun e he => Nat.lt_trans hlt (hb e he)] at this
          cases this
        · exact heq
        · have := h b.1
          rw [lookup, if_neg (by omega),
            lookup_eq_none_of_lt fun e he => Nat.lt_trans hlt (ha e he), lookup, if_pos rfl] at this
          cases this
      have hvalue := h a.1
      rw [lookup, if_pos rfl, lookup, if_pos hab] at hvalue
      have hhead : a = b := Prod.ext (Numbered.number_inj hab) (Option.some.inj hvalue)
      subst hhead
      refine congrArg (a :: ·) (ih hf' hs' fun key => ?_)
      have := h key
      simp only [lookup] at this
      split at this
      · next heq =>
        rw [lookup_eq_none_of_lt fun e he => heq ▸ ha e he,
          lookup_eq_none_of_lt fun e he => heq ▸ hb e he]
      · exact this

/-- **Tables with the same values** under the same keys are equal. -/
theorem ext_find? {first second : Table κ α} (h : ∀ key, first.find? key = second.find? key) :
    first = second := by
  obtain ⟨first, hf⟩ := first
  obtain ⟨second, hs⟩ := second
  obtain rfl := entries_eq_of_lookup_eq hf hs h
  rfl

end Table

end Modbus
