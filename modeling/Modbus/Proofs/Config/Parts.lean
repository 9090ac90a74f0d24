import Modbus.Proofs.Config.Agreement
import Modbus.Proofs.Register.Interpretation

/-!
# The parts of a record

A record is an object or an array, and the two are read quite differently: the members of an object
are put to what was read before them, the items of an array are taken one by one. Yet both give
every field one part: that which stands under its name or in its place, or else the value that
counts when it is left out (`Fields.Finds`, `Fields.Lists`). A record holds what the fields read of
their parts (`Shape.conform_record_eq_ok_iff`).
-/

namespace Modbus

/-! ### Objects -/

namespace Members

/-- The values of a key, in the order in which they stand. -/
def values (key : String) : Members → List Doc
  | .closed | .broken => []
  | .cons other value members =>
    if other = some key then value :: members.values key else members.values key

/-- The members of other keys. -/
def without (key : String) : Members → Members
  | .closed => .closed
  | .broken => .broken
  | .cons other value members =>
    if other = some key then members.without key else .cons other value (members.without key)

/-- The object ends, and all its keys and values can be read over. -/
def isSkippable : Members → Bool
  | .closed => true
  | .broken | .cons none _ _ => false
  | .cons (some _) value members => value.isWhole && members.isSkippable

variable {key other : String} {value : Doc} {members members' : Members}

theorem values_cons_self :
    (cons (some key) value members).values key = value :: members.values key := if_pos rfl

theorem values_cons_of_ne {other : Option String} (hne : other ≠ some key) :
    (cons other value members).values key = members.values key := if_neg hne

theorem without_cons_self :
    (cons (some key) value members).without key = members.without key := if_pos rfl

theorem without_cons_of_ne {other : Option String} (hne : other ≠ some key) :
    (cons other value members).without key = cons other value (members.without key) := if_neg hne

/-- Members of another key do not matter to the values of a key. -/
theorem values_without (hne : other ≠ key) (members : Members) :
    (members.without other).values key = members.values key := by
  induction members using values.induct key with
  | case1 | case2 => rfl
  | case3 value members ih =>
    have hother : some key ≠ some other := fun h => hne (Option.some.inj h).symm
    rw [without_cons_of_ne hother, values_cons_self, values_cons_self, ih]
  | case4 name value members hkey ih =>
    rw [values_cons_of_ne hkey]
    by_cases hother : name = some other
    · rw [hother, without_cons_self, ih]
    · rw [without_cons_of_ne hother, values_cons_of_ne hkey, ih]

theorem without_comm (members : Members) :
    (members.without key).without other = (members.without other).without key := by
  induction members using without.induct key with
  | case1 | case2 => rfl
  | case3 value members ih =>
    rw [without_cons_self, ih]
    by_cases hother : some key = some other
    · rw [hother, without_cons_self, Option.some.inj hother]
    · rw [without_cons_of_ne hother, without_cons_self]
  | case4 name value members hkey ih =>
    rw [without_cons_of_ne hkey]
    by_cases hother : name = some other
    · rw [hother, without_cons_self, without_cons_self, ih]
    · rw [without_cons_of_ne hother, without_cons_of_ne hother, without_cons_of_ne hkey, ih]

/-- The members of a key can be read over apart from the others. -/
theorem isSkippable_eq (key : String) :
    ∀ members : Members, members.isSkippable =
      ((members.without key).isSkippable && (members.values key).all Doc.isWhole)
  | .closed | .broken => rfl
  | .cons none value members => by
    have hkey : none ≠ some key := nofun
    rw [without_cons_of_ne hkey]
    rfl
  | .cons (some name) value members => by
    by_cases hname : some name = some key
    · obtain rfl := Option.some.inj hname
      rw [without_cons_self, values_cons_self, isSkippable, isSkippable_eq name members,
        List.all_cons, Bool.and_left_comm]
    · rw [without_cons_of_ne hname, values_cons_of_ne hname, isSkippable, isSkippable,
        isSkippable_eq key members, Bool.and_assoc]

/-- The members of an object are put one after the other. -/
theorem collect_cons {σ : Type} (put : String → Doc → σ → Except Fault σ) (key : String)
    (value : Doc) (members : Members) (state : σ) :
    (cons (some key) value members).collect put state =
      put key value state >>= members.collect put := rfl

end Members

namespace Fields

/-- The part of a field is the one value under its name, or that which counts when it is left
out. -/
def IsPart (default : Option Json) (values : List Doc) (part : Doc) : Prop :=
  values = [part] ∨ values = [] ∧ ∃ json, default = some json ∧ part = .ofJson json

/-- The parts of a record that is written as an object. The members that are no fields are read
over. -/
inductive Finds : Fields → Members → List Doc → Prop
  | nil {members : Members} (hskip : members.isSkippable = true) : Finds .nil members []
  | cons {name : String} {shape : Shape} {default : Option Json} {fields : Fields}
      {members : Members} {part : Doc} {parts : List Doc}
      (hpart : IsPart default (members.values name) part)
      (hparts : Finds fields (members.without name) parts) :
      Finds (.cons name shape default fields) members (part :: parts)

/-- The parts of a record that is written as an array: the items, and the values that count when
items are left out at the end. -/
inductive Lists : Fields → Items → List Doc → Prop
  | nil : Lists .nil .closed []
  | item {name : String} {shape : Shape} {default : Option Json} {fields : Fields} {part : Doc}
      {items : Items} {parts : List Doc} (hparts : Lists fields items parts) :
      Lists (.cons name shape default fields) (.cons part items) (part :: parts)
  | default {name : String} {shape : Shape} {default : Json} {fields : Fields} {parts : List Doc}
      (hparts : Lists fields .closed parts) :
      Lists (.cons name shape (some default) fields) .closed (.ofJson default :: parts)

/-- The parts of a record. -/
inductive PartsOf (fields : Fields) : Doc → List Doc → Prop
  | object {members : Members} {parts : List Doc} (h : fields.Finds members parts) :
      PartsOf fields (.object members) parts
  | array {items : Items} {parts : List Doc} (h : fields.Lists items parts) :
      PartsOf fields (.array items) parts

/-- What the fields read of their parts. -/
def Holds (source : Source) : (fields : Fields) → List Doc → fields.Val → Prop
  | .nil, parts, () => parts = []
  | .cons _ _ _ _, [], _ => False
  | .cons _ shape _ fields, part :: parts, (value, values) =>
    shape.conform source part = .ok value ∧ fields.Holds source parts values

section

variable {default : Option Json} {part part' : Doc}

theorem isPart_singleton_iff : IsPart default [part'] part ↔ part = part' := by
  constructor
  · rintro (⟨⟨⟩⟩ | ⟨⟨⟩, -⟩)
    rfl
  · rintro rfl
    exact .inl rfl

theorem isPart_nil_iff :
    IsPart default [] part ↔ ∃ json, default = some json ∧ part = .ofJson json := by
  constructor
  · rintro (⟨⟨⟩⟩ | ⟨-, hdefault⟩)
    exact hdefault
  · exact fun hdefault => .inr ⟨rfl, hdefault⟩

/-- A field has no more than one part. -/
theorem IsPart.unique {values : List Doc} (h : IsPart default values part)
    (h' : IsPart default values part') : part = part' := by
  rcases h with rfl | ⟨rfl, json, rfl, rfl⟩
  · exact (isPart_singleton_iff.mp h').symm
  · obtain ⟨_, ⟨⟩, rfl⟩ := isPart_nil_iff.mp h'
    rfl

end

/-- An object has no more than one list of parts. -/
theorem Finds.unique {fields : Fields} {members : Members} {parts parts' : List Doc}
    (h : fields.Finds members parts) (h' : fields.Finds members parts') : parts = parts' := by
  induction h generalizing parts' with
  | nil =>
    cases h'
    rfl
  | cons hpart _ ih =>
    obtain _ | ⟨hpart', hparts'⟩ := h'
    rw [hpart.unique hpart', ih hparts']

/-! ### Reading an object -/

section Collect

variable {source : Source} {name : String} {shape : Shape} {default : Option Json}
  {fields : Fields}

/-- Without fields, members are read over. -/
theorem collect_nil_eq_ok_iff :
    ∀ members : Members,
      members.collect (fun key value slots => nil.put source key value slots) () = .ok () ↔
        members.isSkippable = true
  | .closed => iff_of_true rfl rfl
  | .broken | .cons none _ _ => iff_of_false nofun nofun
  | .cons (some key) value members => by
    rw [Members.collect_cons, put, Members.isSkippable, Bool.and_eq_true]
    split
    · next hwhole => rw [and_iff_right hwhole]; exact collect_nil_eq_ok_iff members
    · next hwhole => exact iff_of_false nofun fun h => hwhole h.1

/-- What the members of its name leave behind for a field. -/
def Fills (read : Doc → Except Fault shape.Val) (slot : Option shape.Val) (values : List Doc)
    (slot' : Option shape.Val) : Prop :=
  (values = [] ∧ slot' = slot) ∨
    slot = none ∧ ∃ part value, values = [part] ∧ read part = .ok value ∧ slot' = some value

/-- The first field takes the members of its name, the others take the rest. -/
theorem collect_cons_eq_ok_iff :
    ∀ (members : Members) {slot slot' : Option shape.Val} {slots slots' : fields.Slots},
      members.collect
          (fun key value slots => (cons name shape default fields).put source key value slots)
          (slot, slots) = .ok (slot', slots') ↔
        Fills (shape.conform source) slot (members.values name) slot' ∧
          (members.without name).collect
            (fun key value slots => fields.put source key value slots) slots = .ok slots'
  | .closed, slot, slot', slots, slots' => by
    constructor
    · rintro ⟨⟩
      exact ⟨.inl ⟨rfl, rfl⟩, rfl⟩
    · rintro ⟨⟨-, rfl⟩ | ⟨-, -, -, ⟨⟩, -⟩, ⟨⟩⟩
      rfl
  | .broken, _, _, _, _ => iff_of_false nofun fun h => nomatch h.2
  | .cons none value members, _, _, _, _ => by
    have hname : none ≠ some name := nofun
    rw [Members.without_cons_of_ne hname]
    exact iff_of_false nofun fun h => nomatch h.2
  | .cons (some key) value members, slot, slot', slots, slots' => by
    rw [Members.collect_cons]
    by_cases hkey : key = name
    · obtain rfl := hkey.symm
      rw [Members.values_cons_self, Members.without_cons_self]
      cases slot with
      | some held =>
        rw [put_again]
        refine iff_of_false nofun ?_
        rintro ⟨⟨⟨⟩, -⟩ | ⟨⟨⟩, -⟩, -⟩
      | none =>
        rw [put_first, bind_assoc]
        simp only [pure_bind, bind_eq_ok_iff, collect_cons_eq_ok_iff members]
        constructor
        · rintro ⟨held, hheld, ⟨hvalues, rfl⟩ | ⟨⟨⟩, -⟩, hrest⟩
          exact ⟨.inr ⟨rfl, value, held, congrArg _ hvalues, hheld, rfl⟩, hrest⟩
        · rintro ⟨⟨⟨⟩, -⟩ | ⟨-, part, held, hpart, hheld, rfl⟩, hrest⟩
          obtain ⟨rfl, hvalues⟩ := List.cons.inj hpart
          exact ⟨held, hheld, .inl ⟨hvalues, rfl⟩, hrest⟩
    · have hne : some key ≠ some name := fun h => hkey (Option.some.inj h)
      rw [put_of_ne hkey, Members.values_cons_of_ne hne, Members.without_cons_of_ne hne,
        Members.collect_cons, bind_assoc]
      simp only [pure_bind, bind_eq_ok_iff, collect_cons_eq_ok_iff members]
      constructor
      · rintro ⟨after, hput, hfills, hrest⟩
        exact ⟨hfills, after, hput, hrest⟩
      · rintro ⟨hfills, after, hput, hrest⟩
        exact ⟨after, hput, hfills, hrest⟩

/-- What a field holds at the end of an object, by what has been read of it. -/
def Keeps (read : Doc → Except Fault shape.Val) (default : Option Json) (slot : Option shape.Val)
    (value : shape.Val) : Prop :=
  slot = some value ∨ slot = none ∧ ∃ json, default = some json ∧ read (.ofJson json) = .ok value

/-- The first field holds what was read of it, or the value that counts when it is left out. -/
theorem fill_cons_eq_ok_iff {slot : Option shape.Val} {slots : fields.Slots} {value : shape.Val}
    {values : fields.Val} :
    (cons name shape default fields).fill source (slot, slots) = .ok (value, values) ↔
      Keeps (shape.conform source) default slot value ∧ fields.fill source slots = .ok values := by
  cases slot with
  | some held =>
    rw [fill, bind_eq_ok_iff]
    constructor
    · rintro ⟨_, hrest, ⟨⟩⟩
      exact ⟨.inl rfl, hrest⟩
    · rintro ⟨⟨⟨⟩⟩ | ⟨⟨⟩, -⟩, hrest⟩
      exact ⟨values, hrest, rfl⟩
  | none =>
    cases default with
    | none =>
      refine iff_of_false nofun ?_
      rintro ⟨⟨⟨⟩⟩ | ⟨-, -, ⟨⟩, -⟩, -⟩
    | some json =>
      rw [fill]
      constructor
      · intro hfill
        obtain ⟨_, hheld, hfill⟩ := bind_eq_ok_iff.mp hfill
        obtain ⟨_, hrest, ⟨⟩⟩ := bind_eq_ok_iff.mp hfill
        exact ⟨.inr ⟨rfl, json, rfl, hheld⟩, hrest⟩
      · rintro ⟨⟨⟨⟩⟩ | ⟨-, _, ⟨⟩, hheld⟩, hrest⟩
        rw [hheld, hrest]
        rfl

/-- A field holds what is read of its part. -/
theorem exists_fills_iff {read : Doc → Except Fault shape.Val} {values : List Doc}
    {value : shape.Val} :
    (∃ slot, Fills read none values slot ∧ Keeps read default slot value) ↔
      ∃ part, IsPart default values part ∧ read part = .ok value := by
  constructor
  · rintro ⟨slot, ⟨rfl, rfl⟩ | ⟨-, part, held, rfl, hheld, rfl⟩, hkeeps⟩
    · obtain ⟨⟨⟩⟩ | ⟨-, json, rfl, hheld⟩ := hkeeps
      exact ⟨_, .inr ⟨rfl, json, rfl, rfl⟩, hheld⟩
    · obtain ⟨⟨⟩⟩ | ⟨⟨⟩, -⟩ := hkeeps
      exact ⟨part, .inl rfl, hheld⟩
  · rintro ⟨part, rfl | ⟨rfl, json, rfl, rfl⟩, hheld⟩
    · exact ⟨some value, .inr ⟨rfl, part, value, rfl, hheld, rfl⟩, .inl rfl⟩
    · exact ⟨none, .inl ⟨rfl, rfl⟩, .inr ⟨rfl, json, rfl, hheld⟩⟩

end Collect

/-- **An object** holds what its fields read of their parts. -/
theorem collect_fill_eq_ok_iff (source : Source) :
    ∀ (fields : Fields) {members : Members} {values : fields.Val},
      members.collect (fun key value slots => fields.put source key value slots) fields.noSlots >>=
          fields.fill source = .ok values ↔
        ∃ parts, fields.Finds members parts ∧ fields.Holds source parts values
  | .nil, members, () => by
    rw [bind_eq_ok_iff]
    constructor
    · rintro ⟨⟨⟩, hcollect, -⟩
      exact ⟨[], .nil ((collect_nil_eq_ok_iff members).mp hcollect), rfl⟩
    · rintro ⟨_, ⟨hskip⟩, -⟩
      exact ⟨(), (collect_nil_eq_ok_iff members).mpr hskip, rfl⟩
  | .cons name shape default fields, members, (value, values) => by
    rw [bind_eq_ok_iff]
    constructor
    · rintro ⟨⟨slot, slots⟩, hcollect, hfill⟩
      obtain ⟨hfills, hcollect⟩ := (collect_cons_eq_ok_iff members).mp hcollect
      obtain ⟨hslot, hfill⟩ := fill_cons_eq_ok_iff.mp hfill
      obtain ⟨part, hpart, hheld⟩ := exists_fills_iff.mp ⟨slot, hfills, hslot⟩
      obtain ⟨parts, hparts, hholds⟩ :=
        (collect_fill_eq_ok_iff source fields).mp (bind_eq_ok_iff.mpr ⟨slots, hcollect, hfill⟩)
      exact ⟨part :: parts, .cons hpart hparts, hheld, hholds⟩
    · rintro ⟨_, ⟨⟩ | ⟨hpart, hparts⟩, hheld, hholds⟩
      obtain ⟨slot, hfills, hslot⟩ := exists_fills_iff.mpr ⟨_, hpart, hheld⟩
      obtain ⟨slots, hcollect, hfill⟩ := bind_eq_ok_iff.mp
        ((collect_fill_eq_ok_iff source fields).mpr ⟨_, hparts, hholds⟩)
      exact ⟨(slot, slots), (collect_cons_eq_ok_iff members).mpr ⟨hfills, hcollect⟩,
        fill_cons_eq_ok_iff.mpr ⟨hslot, hfill⟩⟩

/-! ### Reading an array -/

/-- **An array** holds what its fields read of their parts, if no item is left. -/
theorem conformItems_eq_ok_closed_iff (source : Source) (name : String) (total : ℕ) :
    ∀ (fields : Fields) (index : ℕ) {items : Items} {values : fields.Val},
      fields.conformItems source name total index items = .ok (values, .closed) ↔
        ∃ parts, fields.Lists items parts ∧ fields.Holds source parts values
  | .nil, _, items, () => by
    constructor
    · rintro ⟨⟩
      exact ⟨[], .nil, rfl⟩
    · rintro ⟨_, ⟨⟩, -⟩
      rfl
  | .cons _ shape default fields, index, .broken, _ => by
    refine iff_of_false ?_ nofun
    cases default <;> exact nofun
  | .cons _ shape none fields, index, .closed, _ => iff_of_false nofun nofun
  | .cons _ shape (some json) fields, index, .closed, (value, values) => by
    rw [conformItems, bind_eq_ok_iff]
    simp only [bind_eq_ok_iff]
    constructor
    · rintro ⟨_, hheld, ⟨_, _⟩, hrest, ⟨⟩⟩
      obtain ⟨parts, hparts, hholds⟩ :=
        (conformItems_eq_ok_closed_iff source name total fields (index + 1)).mp hrest
      exact ⟨_, .default hparts, hheld, hholds⟩
    · rintro ⟨_, hlists, hholds⟩
      cases hlists with
      | default hparts =>
        exact ⟨value, hholds.1, (values, .closed),
          (conformItems_eq_ok_closed_iff source name total fields (index + 1)).mpr
            ⟨_, hparts, hholds.2⟩, rfl⟩
  | .cons _ shape default fields, index, .cons item items, (value, values) => by
    rw [conformItems, bind_eq_ok_iff]
    simp only [bind_eq_ok_iff]
    constructor
    · rintro ⟨_, hheld, ⟨_, _⟩, hrest, ⟨⟩⟩
      obtain ⟨parts, hparts, hholds⟩ :=
        (conformItems_eq_ok_closed_iff source name total fields (index + 1)).mp hrest
      exact ⟨_, .item hparts, hheld, hholds⟩
    · rintro ⟨_, hlists, hholds⟩
      cases hlists with
      | item hparts =>
        exact ⟨value, hholds.1, (values, .closed),
          (conformItems_eq_ok_closed_iff source name total fields (index + 1)).mpr
            ⟨_, hparts, hholds.2⟩, rfl⟩

end Fields

/-- An array ends where its end is. -/
theorem Items.finish_eq_ok_iff {source : Source} {total : ℕ} {items : Items} :
    items.finish source total = .ok () ↔ items = .closed := by
  cases items with
  | closed => exact iff_of_true rfl rfl
  | broken => exact iff_of_false nofun nofun
  | cons => cases source <;> exact iff_of_false nofun nofun

namespace Shape

variable {source : Source} {name : String} {fields : Fields}

theorem conform_array (items : Items) :
    (record name fields).conform source (.array items) =
      fields.conformItems source name fields.count 0 items >>= fun (values, rest) =>
        rest.finish source items.length >>= fun _ => pure values := rfl

theorem conform_object (members : Members) :
    (record name fields).conform source (.object members) =
      members.collect (fun key value slots => fields.put source key value slots) fields.noSlots >>=
        fields.fill source := rfl

/-- **A record** holds what its fields read of their parts, in an object as in an array. -/
theorem conform_record_eq_ok_iff {doc : Doc} {values : fields.Val} :
    (Shape.record name fields).conform source doc = .ok values ↔
      ∃ parts, fields.PartsOf doc parts ∧ fields.Holds source parts values := by
  obtain ⟨fault, hfault⟩ := exists_mismatch fields.Val ("struct " ++ name) doc
  cases doc with
  | null | bool | number | text | broken =>
    exact iff_of_false (fun hread => nomatch hfault.symm.trans hread) nofun
  | array items =>
    rw [conform_array]
    constructor
    · intro hread
      obtain ⟨⟨_, rest⟩, hitems, hread⟩ := bind_eq_ok_iff.mp hread
      obtain ⟨_, hfinish, ⟨⟩⟩ := bind_eq_ok_iff.mp hread
      obtain rfl : rest = .closed := Items.finish_eq_ok_iff.mp hfinish
      obtain ⟨parts, hparts, hholds⟩ :=
        (fields.conformItems_eq_ok_closed_iff source name fields.count 0).mp hitems
      exact ⟨parts, .array hparts, hholds⟩
    · rintro ⟨parts, ⟨⟩ | ⟨hparts⟩, hholds⟩
      have hitems : fields.conformItems source name fields.count 0 items = .ok (values, .closed) :=
        (fields.conformItems_eq_ok_closed_iff source name fields.count 0).mpr
          ⟨parts, hparts, hholds⟩
      rw [hitems]
      rfl
  | object members =>
    rw [conform_object, Fields.collect_fill_eq_ok_iff]
    constructor
    · rintro ⟨parts, hparts, hholds⟩
      exact ⟨parts, .object hparts, hholds⟩
    · rintro ⟨parts, ⟨hparts⟩ | ⟨⟩, hholds⟩
      exact ⟨parts, hparts, hholds⟩

end Shape

end Modbus
