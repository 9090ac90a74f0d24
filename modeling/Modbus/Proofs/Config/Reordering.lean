import Mathlib.Data.Option.Basic
import Modbus.Proofs.Config.Agreement

/-!
# Documents with a list in another order

A record of a document may hold a list, as a member or as an item. If the items of that list stand
in another order (`Doc.Reordered`), the record is read with the same outcome, except that what is
read of the list stands in another order too (`Shape.conform_reordered`). For the registers of a map
this is `Configurable.ofJson_reordered` and `Configurable.ofText_reordered`.
-/

namespace Modbus

/-! ### Lists in another order -/

/-- The same items in another order. -/
inductive Items.Perm : Items → Items → Prop
  | closed : Items.Perm .closed .closed
  | cons (item : Doc) {items items' : Items} (h : items.Perm items') :
    Items.Perm (.cons item items) (.cons item items')
  | swap (first second : Doc) (items : Items) :
    Items.Perm (.cons first (.cons second items)) (.cons second (.cons first items))
  | trans {items items' items'' : Items} (h : items.Perm items') (h' : items'.Perm items'') :
    Items.Perm items items''

/-- The same members, but for a list in another order under the key `field`. -/
inductive Members.Reordered (field : String) : Members → Members → Prop
  | here {items items' : Items} (h : items.Perm items') (members : Members) :
    Members.Reordered field (.cons (some field) (.array items) members)
      (.cons (some field) (.array items') members)
  | there (key : Option String) (value : Doc) {members members' : Members}
    (h : members.Reordered field members') :
    Members.Reordered field (.cons key value members) (.cons key value members')

/-- The same items, but for a list in another order behind `index` others. -/
inductive Items.Reordered : Nat → Items → Items → Prop
  | here {items items' : Items} (h : items.Perm items') (rest : Items) :
    Items.Reordered 0 (.cons (.array items) rest) (.cons (.array items') rest)
  | there (item : Doc) {index : Nat} {items items' : Items} (h : items.Reordered index items') :
    Items.Reordered (index + 1) (.cons item items) (.cons item items')

/-- Records that are the same but for a list in another order, which is the member `field` of an
object or stands behind `index` other items of an array. -/
inductive Doc.Reordered (field : String) (index : Nat) : Doc → Doc → Prop
  | object {members members' : Members} (h : members.Reordered field members') :
    Doc.Reordered field index (.object members) (.object members')
  | array {items items' : Items} (h : items.Reordered index items') :
    Doc.Reordered field index (.array items) (.array items')

theorem Items.Perm.isWhole_eq {items items' : Items} (h : items.Perm items') :
    items.isWhole = items'.isWhole := by
  induction h with
  | closed => rfl
  | cons item _ ih => rw [Items.isWhole, Items.isWhole, ih]
  | swap first second items => simp only [Items.isWhole, Bool.and_left_comm]
  | trans _ _ ih ih' => exact ih.trans ih'

theorem Items.Reordered.length_eq {index : Nat} {items items' : Items}
    (h : items.Reordered index items') : items.length = items'.length := by
  induction h with
  | here => rfl
  | there item _ ih => rw [Items.length, Items.length, ih]

/-- Readings that concur with a third concur with each other. -/
theorem Concur.comp {ε α β γ : Type} {R : α → β → Prop} {S : β → γ → Prop} {T : α → γ → Prop}
    {x : Except ε α} {y : Except ε β} {z : Except ε γ} (h : Concur R x y) (h' : Concur S y z)
    (hcomp : ∀ a b c, R a b → S b c → T a c) : Concur T x z := by
  cases h with
  | ok hab =>
    cases h' with
    | ok hbc => exact .ok (hcomp _ _ _ hab hbc)
  | error e _ =>
    cases h' with
    | error _ e' => exact .error e e'

/-- If one of two readings that concur succeeds, so does the other. -/
theorem Concur.exists_eq_ok {ε α β : Type} {R : α → β → Prop} {x : Except ε α} {y : Except ε β}
    {a : α} (h : Concur R x y) (hx : x = .ok a) : ∃ b, y = .ok b ∧ R a b := by
  cases h with
  | ok hab =>
    cases hx
    exact ⟨_, rfl, hab⟩
  | error => cases hx

/-- **Reading a list** in another order gives what is read in another order. -/
theorem Items.Perm.each_concur {α : Type} (read : Doc → Except Fault α) {items items' : Items}
    (h : items.Perm items') : Concur List.Perm (items.each read) (items'.each read) := by
  induction h with
  | closed => exact .ok .nil
  | cons item _ ih =>
    refine (Concur.refl (read item)).bind_eq fun value => ih.bind fun values values' hvalues => ?_
    exact .ok (hvalues.cons value)
  | swap first second items =>
    simp only [Items.each]
    cases read first <;> cases read second <;> cases items.each read
    case ok.ok.ok value value' values => exact .ok (.swap value' value values)
    all_goals exact .error _ _
  | trans _ _ ih ih' => exact ih.comp ih' fun _ _ _ => List.Perm.trans

/-! ### Values with a list in another order -/

/-- The values are the same, but for the order of a list. -/
def Shape.Rearranged : (shape : Shape) → shape.Val → shape.Val → Prop
  | .list _, values, values' => List.Perm values values'
  | _, value, value' => value = value'

theorem Shape.Rearranged.refl : ∀ (shape : Shape) (value : shape.Val), shape.Rearranged value value
  | .list _, values => List.Perm.refl values
  | .uint8, _ | .uint16, _ | .uint32, _ | .int32, _ | .boolean, _ | .text, _ | .format, _
  | .addressRange, _ | .optional _, _ | .pair _ _, _ | .record _ _, _ => rfl

/-- The fields hold the same values, but for the order of a list in the field numbered `index`. -/
def Fields.Rearranged : (fields : Fields) → Nat → fields.Val → fields.Val → Prop
  | .nil, _, _, _ => True
  | .cons _ shape _ _, 0, (value, values), (value', values') =>
    shape.Rearranged value value' ∧ values = values'
  | .cons _ _ _ fields, index + 1, (value, values), (value', values') =>
    value = value' ∧ fields.Rearranged index values values'

/-- The same has been read of the fields, but for the order of that list. -/
def Fields.SlotsRearranged : (fields : Fields) → Nat → fields.Slots → fields.Slots → Prop
  | .nil, _, _, _ => True
  | .cons _ shape _ _, 0, (slot, slots), (slot', slots') =>
    Option.Rel shape.Rearranged slot slot' ∧ slots = slots'
  | .cons _ _ _ fields, index + 1, (slot, slots), (slot', slots') =>
    slot = slot' ∧ fields.SlotsRearranged index slots slots'

/-- The field numbered `index` is the first of its name, and it holds a list. -/
def Fields.ListAt (field : String) : Fields → Nat → Prop
  | .nil, _ => False
  | .cons name shape _ _, 0 => name = field ∧ ∃ item, shape = .list item
  | .cons name _ _ fields, index + 1 => name ≠ field ∧ fields.ListAt field index

theorem Fields.slotsRearranged_noSlots :
    ∀ (fields : Fields) (index : Nat), fields.SlotsRearranged index fields.noSlots fields.noSlots
  | .nil, _ => trivial
  | .cons _ _ _ _, 0 => ⟨.none, rfl⟩
  | .cons _ _ _ fields, index + 1 => ⟨rfl, fields.slotsRearranged_noSlots index⟩

/-- The list itself is read in another order. -/
theorem Shape.conform_list_reordered (source : Source) {shape item : Shape}
    (hshape : shape = .list item) {items items' : Items} (h : items.Perm items') :
    Concur shape.Rearranged (shape.conform source (.array items))
      (shape.conform source (.array items')) := by
  subst hshape
  exact h.each_concur fun doc => item.conform source doc

/-- The same member is put to what was read before it. -/
theorem Fields.put_rearranged (source : Source) (key : String) (value : Doc) :
    ∀ (fields : Fields) (index : Nat) {slots slots' : fields.Slots},
      fields.SlotsRearranged index slots slots' →
        Concur (fields.SlotsRearranged index) (fields.put source key value slots)
          (fields.put source key value slots')
  | .nil, _, (), (), _ => by
    rw [put]
    cases value.isWhole
    · exact .error _ _
    · exact .ok trivial
  | .cons name shape _ fields, 0, (slot, slots), (slot', _), ⟨hslot, hslots⟩ => by
    obtain rfl := hslots
    by_cases hkey : key = name
    · obtain rfl := hkey
      cases hslot with
      | none =>
        rw [put_first]
        exact (Concur.refl (shape.conform source value)).bind_eq fun held =>
          .ok ⟨.some (.refl shape held), rfl⟩
      | some =>
        rw [put_again, put_again]
        exact .error _ _
    · rw [put_of_ne hkey, put_of_ne hkey]
      exact (Concur.refl (fields.put source key value slots)).bind_eq fun after =>
        .ok ⟨hslot, rfl⟩
  | .cons name shape _ fields, index + 1, (slot, slots), (_, slots'), ⟨hslot, hslots⟩ => by
    obtain rfl := hslot
    by_cases hkey : key = name
    · obtain rfl := hkey
      cases slot with
      | none =>
        rw [put_first, put_first]
        exact (Concur.refl (shape.conform source value)).bind_eq fun held => .ok ⟨rfl, hslots⟩
      | some held =>
        rw [put_again, put_again]
        exact .error _ _
    · rw [put_of_ne hkey, put_of_ne hkey]
      exact (fields.put_rearranged source key value index hslots).bind
        fun after after' hafter => .ok ⟨rfl, hafter⟩

/-- The list is put in another order to what was read before it. -/
theorem Fields.put_reordered (source : Source) {field : String} {items items' : Items}
    (h : items.Perm items') :
    ∀ (fields : Fields) (index : Nat) {slots slots' : fields.Slots}, fields.ListAt field index →
      fields.SlotsRearranged index slots slots' →
        Concur (fields.SlotsRearranged index) (fields.put source field (.array items) slots)
          (fields.put source field (.array items') slots')
  | .cons name shape _ fields, 0, (slot, slots), (slot', _), ⟨hname, item, hshape⟩,
      ⟨hslot, hslots⟩ => by
    obtain rfl := hslots
    obtain rfl := hname
    cases hslot with
    | none =>
      rw [put_first, put_first]
      exact (shape.conform_list_reordered source hshape h).bind fun held held' hheld =>
        .ok ⟨.some hheld, rfl⟩
    | some =>
      rw [put_again, put_again]
      exact .error _ _
  | .cons name shape _ fields, index + 1, (slot, slots), (_, slots'), ⟨hname, hlist⟩,
      ⟨hslot, hslots⟩ => by
    obtain rfl := hslot
    rw [put_of_ne (Ne.symm hname), put_of_ne (Ne.symm hname)]
    exact (fields.put_reordered source h index hlist hslots).bind
      fun after after' hafter => .ok ⟨rfl, hafter⟩

/-- What the fields hold at the end of an object. -/
theorem Fields.fill_rearranged (source : Source) :
    ∀ (fields : Fields) (index : Nat) {slots slots' : fields.Slots},
      fields.SlotsRearranged index slots slots' →
        Concur (fields.Rearranged index) (fields.fill source slots) (fields.fill source slots')
  | .nil, _, (), (), _ => .ok trivial
  | .cons name shape default fields, 0, (slot, slots), (slot', _), ⟨hslot, hslots⟩ => by
    obtain rfl := hslots
    cases hslot with
    | none =>
      cases default with
      | none => exact .error _ _
      | some default =>
        exact (Concur.refl (shape.conform source (.ofJson default))).bind_eq fun value =>
          (Concur.refl (fields.fill source slots)).bind_eq fun values =>
            .ok ⟨.refl shape value, rfl⟩
    | some hheld =>
      exact (Concur.refl (fields.fill source slots)).bind_eq fun values => .ok ⟨hheld, rfl⟩
  | .cons name shape default fields, index + 1, (slot, slots), (_, slots'), ⟨hslot, hslots⟩ => by
    obtain rfl := hslot
    have hrest := fields.fill_rearranged source index hslots
    cases slot with
    | some value => exact hrest.bind fun values values' hvalues => .ok ⟨rfl, hvalues⟩
    | none =>
      cases default with
      | none => exact .error _ _
      | some default =>
        exact (Concur.refl (shape.conform source (.ofJson default))).bind_eq fun value =>
          hrest.bind fun values values' hvalues => .ok ⟨rfl, hvalues⟩

/-- The fields of a record that is written as an array. -/
theorem Fields.conformItems_reordered (source : Source) (name field : String) (total : Nat) :
    ∀ (fields : Fields) (index start : Nat) {items items' : Items}, fields.ListAt field index →
      items.Reordered index items' →
        Concur (fun read read' => fields.Rearranged index read.1 read'.1 ∧ read.2 = read'.2)
          (fields.conformItems source name total start items)
          (fields.conformItems source name total start items')
  | .cons _ shape _ fields, 0, start, _, _, ⟨_, _, hshape⟩, .here h rest =>
    (shape.conform_list_reordered source hshape h).bind fun _ _ hvalue =>
      (Concur.refl (fields.conformItems source name total (start + 1) rest)).bind_eq
        fun _ => .ok ⟨⟨hvalue, rfl⟩, rfl⟩
  | .cons _ shape _ fields, index + 1, start, _, _, ⟨_, hlist⟩, .there item h =>
    (Concur.refl (shape.conform source item)).bind_eq fun _ =>
      (fields.conformItems_reordered source name field total index (start + 1) hlist h).bind
        fun _ _ hread => .ok ⟨⟨rfl, hread.1⟩, hread.2⟩

/-- The members of an object, each put to what was read before it. -/
theorem Members.collect_rearranged (source : Source) (fields : Fields) (index : Nat) :
    ∀ (members : Members) {slots slots' : fields.Slots},
      fields.SlotsRearranged index slots slots' →
        Concur (fields.SlotsRearranged index)
          (members.collect (fun key value slots => fields.put source key value slots) slots)
          (members.collect (fun key value slots => fields.put source key value slots) slots')
  | .closed, _, _, h => .ok h
  | .broken, _, _, _ => .error _ _
  | .cons none _ _, _, _, _ => .error _ _
  | .cons (some key) value members, _, _, h =>
    (fields.put_rearranged source key value index h).bind fun _ _ hafter =>
      members.collect_rearranged source fields index hafter

theorem Members.Reordered.collect_concur (source : Source) {field : String} {fields : Fields}
    {index : Nat} (hlist : fields.ListAt field index) {members members' : Members}
    (h : members.Reordered field members') {slots slots' : fields.Slots}
    (hslots : fields.SlotsRearranged index slots slots') :
    Concur (fields.SlotsRearranged index)
      (members.collect (fun key value slots => fields.put source key value slots) slots)
      (members'.collect (fun key value slots => fields.put source key value slots) slots') := by
  induction h generalizing slots slots' with
  | here h members =>
    exact (fields.put_reordered source h index hlist hslots).bind fun _ _ hafter =>
      members.collect_rearranged source fields index hafter
  | there key value _ ih =>
    cases key with
    | none => exact .error _ _
    | some key =>
      exact (fields.put_rearranged source key value index hslots).bind fun _ _ hafter => ih hafter

/-- **A record with a list in another order** is read with the same outcome, but for the order of
the list. -/
theorem Shape.conform_reordered (source : Source) (name : String) {field : String}
    {fields : Fields} {index : Nat} (hlist : fields.ListAt field index) {doc doc' : Doc}
    (h : doc.Reordered field index doc') :
    Concur (fields.Rearranged index) ((Shape.record name fields).conform source doc)
      ((Shape.record name fields).conform source doc') := by
  cases h with
  | object h =>
    exact (h.collect_concur source hlist (fields.slotsRearranged_noSlots index)).bind
      fun slots slots' hslots => fields.fill_rearranged source index hslots
  | @array items items' h =>
    refine (fields.conformItems_reordered source name field fields.count index 0 hlist h).bind ?_
    rintro ⟨values, rest⟩ ⟨values', _⟩ ⟨hvalues, hrest⟩
    obtain rfl : rest = _ := hrest
    simp only [h.length_eq]
    exact (Concur.refl (rest.finish source items'.length)).bind_eq fun _ => .ok hvalues

/-! ### The registers of a map -/

namespace MapConfig

/-- The maps are the same, but for the order of their registers. -/
def Reordered (config config' : MapConfig) : Prop :=
  config' = { config with registers := config'.registers } ∧
    config.registers.Perm config'.registers

theorem Reordered.symm {config config' : MapConfig} (h : config.Reordered config') :
    config'.Reordered config := by
  obtain ⟨hsame, hperm⟩ := h
  refine ⟨?_, hperm.symm⟩
  rw [hsame]

theorem listAt_registers : fields.ListAt "registers" 6 :=
  ⟨by decide, by decide, by decide, by decide, by decide, by decide, rfl, _, rfl⟩

theorem reordered_of_rearranged {values values' : fields.Val}
    (h : fields.Rearranged 6 values values') : (ofFields values).Reordered (ofFields values') := by
  obtain ⟨name, range, probe, defaultBaud, preferredBaud, handlers, registers, ⟨⟩⟩ := values
  obtain ⟨name', range', probe', defaultBaud', preferredBaud', handlers', registers', ⟨⟩⟩ := values'
  obtain ⟨rfl, rfl, rfl, rfl, rfl, rfl, hregisters, -⟩ := h
  exact ⟨rfl, List.Perm.map Descriptor.ofFields hregisters⟩

end MapConfig

namespace Configurable

/-- **A map whose registers stand in another order** is read from a value with the same outcome, but
for that order. -/
theorem ofJson_reordered {json json' : Json}
    (h : (Doc.ofJson json).Reordered "registers" 6 (.ofJson json')) :
    Concur MapConfig.Reordered (ofJson json) (ofJson json') :=
  (Shape.conform_reordered .parsed "RegisterMapConfig" MapConfig.listAt_registers h).bind
    fun _ _ hvalues => .ok (MapConfig.reordered_of_rearranged hvalues)

/-- So it is from a text. -/
theorem ofText_reordered {text text' : String}
    (htrailing : (Document.ofText text).trailing = (Document.ofText text').trailing)
    (h : (Document.ofText text).root.Reordered "registers" 6 (Document.ofText text').root) :
    Concur MapConfig.Reordered (ofText text) (ofText text') := by
  rw [ofText, ofText, htrailing]
  refine (Shape.conform_reordered .streamed "RegisterMapConfig" MapConfig.listAt_registers h).bind
    fun values values' hvalues => ?_
  cases (Document.ofText text').trailing with
  | true => exact .error _ _
  | false => exact .ok (MapConfig.reordered_of_rearranged hvalues)

end Configurable

end Modbus
