import Mathlib.Logic.Basic
import Modbus.Config.Form
import Modbus.Proofs.Json.Alike

/-!
# Reading does not depend on the order of members

A document is read by a shape with the same outcome from a text and from a value that has been read
as a whole, and in whatever order the members of its objects stand (`Shape.conform_concur`). Which
fault is found may depend on both, since a reading ends at the first one that it meets; that a fault
is found does not. So a configuration is read from a text as from the value of that text
(`Configurable.ofText_concur_ofJson`).
-/

namespace Modbus

/-! ### Outcomes of readings -/

/-- Both readings succeed, with results that are related, or both fail. -/
inductive Concur {ε α β : Type} (R : α → β → Prop) : Except ε α → Except ε β → Prop
  | ok {a : α} {b : β} (h : R a b) : Concur R (.ok a) (.ok b)
  | error (e e' : ε) : Concur R (.error e) (.error e')

namespace Concur

variable {ε α β α' β' : Type}

theorem refl (outcome : Except ε α) : Concur Eq outcome outcome := by
  cases outcome with
  | ok a => exact .ok rfl
  | error e => exact .error e e

theorem symm {x y : Except ε α} (h : Concur Eq x y) : Concur Eq y x := by
  cases h with
  | ok hab => exact .ok hab.symm
  | error e e' => exact .error e' e

theorem trans {x y z : Except ε α} (h : Concur Eq x y) (h' : Concur Eq y z) :
    Concur Eq x z := by
  cases h with
  | ok hab =>
    cases h' with
    | ok hbc => exact .ok (hab.trans hbc)
  | error e _ =>
    cases h' with
    | error _ e' => exact .error e e'

/-- Readings that both fail concur. -/
theorem of_error {R : α → β → Prop} {x : Except ε α} {y : Except ε β}
    (hx : ∃ e, x = .error e) (hy : ∃ e, y = .error e) : Concur R x y := by
  obtain ⟨e, rfl⟩ := hx
  obtain ⟨e', rfl⟩ := hy
  exact .error e e'

/-- Readings that go on in ways that concur on related results concur. -/
theorem bind {R : α → β → Prop} {S : α' → β' → Prop} {x : Except ε α} {y : Except ε β}
    {f : α → Except ε α'} {g : β → Except ε β'} (h : Concur R x y)
    (hnext : ∀ a b, R a b → Concur S (f a) (g b)) : Concur S (x >>= f) (y >>= g) := by
  cases h with
  | ok hab => exact hnext _ _ hab
  | error e e' => exact .error e e'

/-- Readings that go on in ways that concur on the same result concur. -/
theorem bind_eq {S : α' → β' → Prop} {x y : Except ε α} {f : α → Except ε α'}
    {g : α → Except ε β'} (h : Concur Eq x y) (hnext : ∀ a, Concur S (f a) (g a)) :
    Concur S (x >>= f) (y >>= g) :=
  h.bind fun a _ hab => hab ▸ hnext a

/-- Two readings that do not depend on each other can be made in either order. -/
theorem bind_comm {γ : Type} (x : Except ε α) (y : Except ε β)
    (f : α → β → Except ε γ) :
    Concur Eq (x >>= fun a => y >>= fun b => f a b) (y >>= fun b => x >>= fun a => f a b) := by
  cases x with
  | ok a => exact refl _
  | error e =>
    cases y with
    | ok b => exact refl _
    | error e' => exact .error e e'

/-- Of readings that concur both have a result or none. -/
theorem eq_ok_iff {x y : Except ε α} (h : Concur Eq x y) (a : α) : x = .ok a ↔ y = .ok a := by
  cases h with
  | ok hab => rw [hab]
  | error e e' => exact iff_of_false nofun nofun

/-- The same is made of the results of readings that concur. -/
theorem map {x y : Except ε α} (h : Concur Eq x y) (f : α → β) :
    Concur Eq (do return f (← x)) (do return f (← y)) :=
  h.bind_eq fun a => refl (.ok (f a))

end Concur

/-- What fails after a reading fails with it. -/
theorem exists_bind_error {ε α β : Type} (outcome : Except ε α) {next : α → Except ε β}
    (hnext : ∀ a, ∃ fault, next a = .error fault) : ∃ fault, (outcome >>= next) = .error fault := by
  cases outcome with
  | error fault => exact ⟨fault, rfl⟩
  | ok a => exact hnext a

/-! ### Parts that hold no other parts -/

/-- Something else than it should be is refused, whatever it is. -/
theorem exists_mismatch (α : Type) (wanted : String) (doc : Doc) :
    ∃ fault, (mismatch wanted doc : Except Fault α) = .error fault := by
  rw [mismatch]
  cases doc.found? with
  | some found => exact ⟨_, rfl⟩
  | none => exact ⟨_, rfl⟩

theorem concur_mismatch {α : Type} (wanted : String) (doc doc' : Doc) :
    Concur Eq (mismatch wanted doc : Except Fault α) (mismatch wanted doc') :=
  .of_error (exists_mismatch α wanted doc) (exists_mismatch α wanted doc')

/-- A reading that refuses arrays and objects does not depend on the order of members. -/
theorem Doc.Alike.concur_of_scalar {α : Type} {doc doc' : Doc} (h : doc.Alike doc')
    (read : Doc → Except Fault α) (harray : ∀ items, ∃ fault, read (.array items) = .error fault)
    (hobject : ∀ members, ∃ fault, read (.object members) = .error fault) :
    Concur Eq (read doc) (read doc') := by
  cases h with
  | null | bool | number | text | broken => exact .refl _
  | array => exact .of_error (harray _) (harray _)
  | object => exact .of_error (hobject _) (hobject _)

/-- The two readings concur on documents that are alike. -/
def ReadsAlike {α : Type} (read read' : Doc → Except Fault α) : Prop :=
  ∀ {doc doc' : Doc}, doc.Alike doc' → Concur Eq (read doc) (read' doc')

theorem conformInteger_concur (wanted : String) (least most : Int) :
    ReadsAlike (conformInteger wanted least most) (conformInteger wanted least most) :=
  fun h => h.concur_of_scalar _ (fun _ => ⟨_, rfl⟩) fun _ => ⟨_, rfl⟩

theorem conformByte_concur : ReadsAlike conformByte conformByte :=
  fun h => (conformInteger_concur "u8" 0 255 h).map fun n => UInt8.ofNat n.toNat

theorem conformBoolean_concur : ReadsAlike conformBoolean conformBoolean :=
  fun h => h.concur_of_scalar _ (fun _ => ⟨_, rfl⟩) fun _ => ⟨_, rfl⟩

theorem conformText_concur : ReadsAlike conformText conformText :=
  fun h => h.concur_of_scalar _ (fun _ => ⟨_, rfl⟩) fun _ => ⟨_, rfl⟩

theorem conformUnit_concur : ReadsAlike conformUnit conformUnit :=
  fun h => h.concur_of_scalar _ (fun _ => ⟨_, rfl⟩) fun _ => ⟨_, rfl⟩

/-! ### Formats -/

theorem Members.Alike.closed_iff :
    ∀ {members members' : Members}, members.Alike members' →
      (members = .closed ↔ members' = .closed)
  | _, _, .trans hfirst hsecond => hfirst.closed_iff.trans hsecond.closed_iff
  | _, _, .closed => .rfl
  | _, _, .broken => .rfl
  | _, _, .cons _ _ _ => iff_of_false nofun nofun
  | _, _, .swap _ _ _ _ => iff_of_false nofun nofun

/-- A format is read alike from both sources. -/
theorem conformFormat_source (source : Source) (doc : Doc) :
    Concur Eq (conformFormat source doc) (conformFormat .parsed doc) := by
  cases source with
  | parsed => exact .refl _
  | streamed =>
    match doc with
    | .null | .bool _ | .array _ | .broken => exact .error _ _
    | .number none | .number (some _) => exact .error _ _
    | .text none => exact .error _ _
    | .text (some name) => exact .refl _
    | .object .closed | .object .broken => exact .error _ _
    | .object (.cons none _ _) => exact .error _ _
    | .object (.cons (some key) value .closed) => exact .refl _
    | .object (.cons (some key) value .broken) | .object (.cons (some key) value (.cons _ _ _)) =>
      -- even if the key and its value are right, more follows
      exact .of_error
        (exists_bind_error _ fun _ => exists_bind_error _ fun _ => ⟨_, rfl⟩) ⟨_, rfl⟩

/-- An object of more than one member is no format. -/
theorem conformFormat_of_ne_closed (key : Option String) (value : Doc) {members : Members}
    (hmembers : members ≠ .closed) :
    ∃ fault, conformFormat .parsed (.object (.cons key value members)) = .error fault := by
  match key, members with
  | none, _ => exact ⟨_, rfl⟩
  | some key, .closed => exact absurd rfl hmembers
  | some key, .broken => exact ⟨_, rfl⟩
  | some key, .cons _ _ _ => exact ⟨_, rfl⟩

/-- Of an object, its one member counts. -/
theorem Members.Alike.conformFormat_concur :
    ∀ {members members' : Members}, members.Alike members' →
      Concur Eq (conformFormat .parsed (.object members)) (conformFormat .parsed (.object members'))
  | _, _, .closed => .refl _
  | _, _, .broken => .refl _
  | _, _, .trans hfirst hsecond => hfirst.conformFormat_concur.trans hsecond.conformFormat_concur
  | _, _, .swap _ _ _ _ =>
    .of_error (conformFormat_of_ne_closed _ _ nofun) (conformFormat_of_ne_closed _ _ nofun)
  | .cons key value members, .cons _ value' members', .cons _ hvalue hmembers => by
    by_cases hclosed : members = .closed
    · obtain rfl := hclosed
      obtain rfl := hmembers.closed_iff.mp rfl
      cases key with
      | none => exact .error _ _
      | some key =>
        exact (Concur.refl (conformVariant key)).bind_eq fun format =>
          (conformUnit_concur hvalue).bind_eq fun _ => .refl (.ok format)
    · have hclosed' : members' ≠ .closed := fun h => hclosed (hmembers.closed_iff.mpr h)
      exact .of_error (conformFormat_of_ne_closed _ _ hclosed)
        (conformFormat_of_ne_closed _ _ hclosed')

theorem conformFormat_concur (source source' : Source) :
    ReadsAlike (conformFormat source) (conformFormat source') := by
  intro doc doc' h
  have hparsed : Concur Eq (conformFormat .parsed doc) (conformFormat .parsed doc') := by
    cases h with
    | null | bool | number | text | broken => exact .refl _
    | array => exact .error _ _
    | object hmembers => exact hmembers.conformFormat_concur
  exact (conformFormat_source source doc).trans
    (hparsed.trans (conformFormat_source source' doc').symm)

/-! ### Arrays -/

theorem Items.Alike.finish_concur {items items' : Items} (h : items.Alike items')
    (source source' : Source) (total total' : Nat) :
    Concur Eq (items.finish source total) (items'.finish source' total') := by
  cases h with
  | closed => exact .refl _
  | broken => exact .error _ _
  | cons => cases source <;> cases source' <;> exact .error _ _

section

variable {α β : Type} {read read' : Doc → Except Fault α}
  {readSecond readSecond' : Doc → Except Fault β}

theorem Items.Alike.each_concur (hread : ReadsAlike read read') {items items' : Items}
    (h : items.Alike items') : Concur Eq (items.each read) (items'.each read') := by
  cases h with
  | closed => exact .refl _
  | broken => exact .error _ _
  | cons hitem hitems =>
    refine (hread hitem).bind_eq fun value => ?_
    exact (hitems.each_concur hread).map (value :: ·)

theorem conformList_concur (hread : ReadsAlike read read') :
    ReadsAlike (conformList read) (conformList read') := by
  intro doc doc' h
  cases h with
  | null | bool | broken | object => exact .error _ _
  | number | text => exact concur_mismatch _ _ _
  | array hitems => exact hitems.each_concur hread

theorem conformOptional_concur (hread : ReadsAlike read read') :
    ReadsAlike (conformOptional read) (conformOptional read') := by
  intro doc doc' h
  have hsome := (hread h).map some
  cases h with
  | null => exact .refl _
  | bool | number | text | broken | array | object => exact hsome

theorem conformPair_concur (source source' : Source) (hread : ReadsAlike read read')
    (hsecond : ReadsAlike readSecond readSecond') :
    ReadsAlike (conformPair source read readSecond) (conformPair source' read' readSecond') := by
  intro doc doc' h
  cases h with
  | null | bool | broken | object => exact .error _ _
  | number | text => exact concur_mismatch _ _ _
  | array hitems =>
    cases hitems with
    | closed | broken => exact .error _ _
    | cons hitem hrest =>
      refine (hread hitem).bind_eq fun first => ?_
      cases hrest with
      | closed | broken => exact .error _ _
      | cons hitem' hrest' =>
        refine (hsecond hitem').bind_eq fun second => ?_
        exact (hrest'.finish_concur source source' _ _).bind_eq fun _ => .refl (.ok (first, second))

end

theorem conformRange_concur (source source' : Source) :
    ReadsAlike (conformRange source) (conformRange source') :=
  fun h => (conformPair_concur source source' conformByte_concur conformByte_concur h).bind_eq
    fun _ => .refl _

/-! ### Objects -/

/-- A key that is no text is not read over. -/
theorem Members.exists_collect_error {σ : Type} (put : String → Doc → σ → Except Fault σ)
    (key : Option String) (value held : Doc) (members : Members) (state : σ) :
    ∃ fault, (Members.cons key value (.cons none held members)).collect put state =
      .error fault := by
  cases key with
  | none => exact ⟨_, rfl⟩
  | some key => exact exists_bind_error _ fun _ => ⟨_, rfl⟩

/-- **The order of members** does not matter to a reader that puts them to what was read before, if
it puts members with different keys in either order. -/
theorem Members.Alike.collect_concur {σ : Type} {put : Source → String → Doc → σ → Except Fault σ}
    (hput : ∀ source source' key {value value' : Doc}, value.Alike value' → ∀ state,
      Concur Eq (put source key value state) (put source' key value' state))
    (hcomm : ∀ source {key other : String}, key ≠ other → ∀ value held state,
      Concur Eq (put source key value state >>= put source other held)
        (put source other held state >>= put source key value)) :
    ∀ {members members' : Members}, members.Alike members' → ∀ source source' state,
      Concur Eq (members.collect (put source) state) (members'.collect (put source') state)
  | _, _, .closed, _, _, _ => .refl _
  | _, _, .broken, _, _, _ => .error _ _
  | _, _, .cons none _ _, _, _, _ => .error _ _
  | _, _, .cons (some key) hvalue hmembers, source, source', state =>
    (hput source source' key hvalue state).bind_eq fun state =>
      hmembers.collect_concur hput hcomm source source' state
  | .cons none _ _, .cons _ _ _, .swap _ _ _ _, _, source', state =>
    .of_error ⟨_, rfl⟩ (exists_collect_error (put source') _ _ _ _ state)
  | .cons (some _) _ _, .cons none _ _, .swap _ _ _ _, source, _, state =>
    .of_error (exists_collect_error (put source) _ _ _ _ state) ⟨_, rfl⟩
  | .cons (some key) value (.cons _ held _), .cons (some other) held' (.cons _ value' _),
      .swap hne hvalue hheld hmembers, source, source', state => by
    have hputs : Concur Eq (put source key value state >>= put source other held)
        (put source' other held' state >>= put source' key value') := by
      refine Concur.trans ?_ (hcomm source' (fun heq => hne (congrArg some heq)) value' held' state)
      exact (hput source source' key hvalue state).bind_eq (hput source source' other hheld)
    show Concur Eq (put source key value state >>= fun state => put source other held state >>= _)
      (put source' other held' state >>= fun state => put source' key value' state >>= _)
    rw [← bind_assoc, ← bind_assoc]
    exact hputs.bind_eq fun state => hmembers.collect_concur hput hcomm source source' state
  | _, _, .trans hfirst hsecond, source, source', state =>
    (hfirst.collect_concur hput hcomm source source' state).trans
      (hsecond.collect_concur hput hcomm source' source' state)

namespace Fields

variable {name key other : String} {shape : Shape} {default : Option Json} {fields : Fields}

theorem put_first (source : Source) (value : Doc) (slots : fields.Slots) :
    (cons name shape default fields).put source name value (none, slots) =
      do
        let held ← shape.conform source value
        return (some held, slots) := by
  rw [put, if_pos rfl]
  rfl

theorem put_again (source : Source) (value : Doc) (held : shape.Val) (slots : fields.Slots) :
    (cons name shape default fields).put source name value (some held, slots) =
      .error (.duplicateField name) := by
  rw [put, if_pos rfl]
  rfl

theorem put_of_ne (hne : key ≠ name) (source : Source) (value : Doc) (slot : Option shape.Val)
    (slots : fields.Slots) :
    (cons name shape default fields).put source key value (slot, slots) =
      do
        let slots ← fields.put source key value slots
        return (slot, slots) := by
  rw [put, if_neg hne]

/-- A member of the first field can be put before or after one of another. -/
theorem put_self_comm (hne : other ≠ name) (source : Source) (value held : Doc)
    (slots : (cons name shape default fields).Slots) :
    Concur Eq
      ((cons name shape default fields).put source name value slots >>=
        (cons name shape default fields).put source other held)
      ((cons name shape default fields).put source other held slots >>=
        (cons name shape default fields).put source name value) := by
  obtain ⟨slot, slots⟩ := slots
  cases slot with
  | some first =>
    -- the field has been met already, so it is refused either way
    rw [put_again, put_of_ne hne, bind_assoc]
    refine .of_error ⟨_, rfl⟩ (exists_bind_error _ fun slots => ?_)
    rw [pure_bind, put_again]
    exact ⟨_, rfl⟩
  | none =>
    rw [put_first, put_of_ne hne, bind_assoc, bind_assoc]
    simp only [pure_bind, put_of_ne hne, put_first]
    exact .bind_comm _ _ fun held slots => .ok (some held, slots)

/-- Members with different keys can be put in either order. -/
theorem put_comm (source : Source) (hne : key ≠ other) (value held : Doc) :
    ∀ (fields : Fields) (slots : fields.Slots),
      Concur Eq (fields.put source key value slots >>= fields.put source other held)
        (fields.put source other held slots >>= fields.put source key value)
  | .nil, () => by
    simp only [put]
    cases value.isWhole <;> cases held.isWhole
    case true.true => exact .refl _
    all_goals exact .error _ _
  | .cons name shape default fields, (slot, slots) => by
    by_cases hkey : key = name
    · obtain rfl := hkey
      exact put_self_comm hne.symm source value held (slot, slots)
    by_cases hother : other = name
    · obtain rfl := hother
      exact (put_self_comm hne source held value (slot, slots)).symm
    rw [put_of_ne hkey, put_of_ne hother, bind_assoc, bind_assoc]
    simp only [pure_bind, put_of_ne hkey, put_of_ne hother]
    rw [← bind_assoc, ← bind_assoc]
    exact (put_comm source hne value held fields slots).map (slot, ·)

end Fields

/-! ### Reading by a shape -/

mutual

/-- **Reading by a shape** has the same outcome from both sources and for documents that are
alike. -/
theorem Shape.conform_concur (source source' : Source) :
    ∀ shape : Shape, ReadsAlike (shape.conform source) (shape.conform source')
  | .uint8, _, _, h => conformByte_concur h
  | .uint16, _, _, h => (conformInteger_concur "u16" 0 65535 h).map fun n => UInt16.ofNat n.toNat
  | .uint32, _, _, h =>
    (conformInteger_concur "u32" 0 4294967295 h).map fun n => UInt32.ofNat n.toNat
  | .int32, _, _, h => (conformInteger_concur "i32" (-2147483648) 2147483647 h).map Int32.ofInt
  | .boolean, _, _, h => conformBoolean_concur h
  | .text, _, _, h => conformText_concur h
  | .format, _, _, h => conformFormat_concur source source' h
  | .addressRange, _, _, h => conformRange_concur source source' h
  | .optional shape, _, _, h => conformOptional_concur (shape.conform_concur source source') h
  | .list shape, _, _, h => conformList_concur (shape.conform_concur source source') h
  | .pair first second, _, _, h =>
    conformPair_concur source source' (first.conform_concur source source')
      (second.conform_concur source source') h
  | .record name fields, _, _, h => by
    cases h with
    | null | bool | broken => exact .error _ _
    | number | text => exact concur_mismatch _ _ _
    | array hitems =>
      refine (fields.conformItems_concur source source' name fields.count 0 hitems).bind ?_
      rintro ⟨values, rest⟩ ⟨_, rest'⟩ ⟨rfl, hrest⟩
      exact (hrest.finish_concur source source' _ _).bind_eq fun _ => .refl (.ok values)
    | object hmembers =>
      have hcollect := hmembers.collect_concur
        (fun source source' key _ _ hvalue => fields.put_concur source source' key hvalue)
        (fun source _ _ hne value held => fields.put_comm source hne value held)
        source source' fields.noSlots
      exact hcollect.bind_eq fun slots => fields.fill_concur source source' slots

theorem Fields.conformItems_concur (source source' : Source) (name : String) (total : Nat) :
    ∀ (fields : Fields) (index : Nat) {items items' : Items}, items.Alike items' →
      Concur (fun read read' => read.1 = read'.1 ∧ read.2.Alike read'.2)
        (fields.conformItems source name total index items)
        (fields.conformItems source' name total index items')
  | .nil, _, _, _, h => .ok ⟨rfl, h⟩
  | .cons _ shape default fields, index, _, _, h => by
    cases h with
    | broken => cases default <;> exact .error _ _
    | closed =>
      cases default with
      | none => exact .error _ _
      | some default =>
        refine (shape.conform_concur source source' (Doc.Alike.refl _)).bind_eq fun value => ?_
        refine (fields.conformItems_concur source source' name total (index + 1) .closed).bind ?_
        rintro ⟨values, rest⟩ ⟨_, rest'⟩ ⟨rfl, hrest⟩
        exact .ok ⟨rfl, hrest⟩
    | cons hitem hitems =>
      refine (shape.conform_concur source source' hitem).bind_eq fun value => ?_
      refine (fields.conformItems_concur source source' name total (index + 1) hitems).bind ?_
      rintro ⟨values, rest⟩ ⟨_, rest'⟩ ⟨rfl, hrest⟩
      exact .ok ⟨rfl, hrest⟩

theorem Fields.put_concur (source source' : Source) :
    ∀ (fields : Fields) (key : String) {value value' : Doc}, value.Alike value' →
      ∀ slots : fields.Slots,
        Concur Eq (fields.put source key value slots) (fields.put source' key value' slots)
  | .nil, key, _, _, h, () => by
    rw [Fields.put, Fields.put, h.isWhole_eq]
    exact .refl _
  | .cons name shape _ fields, key, _, _, h, (slot, slots) => by
    by_cases hkey : key = name
    · obtain rfl := hkey
      cases slot with
      | none =>
        rw [Fields.put_first, Fields.put_first]
        exact (shape.conform_concur source source' h).map fun held => (some held, slots)
      | some held =>
        rw [Fields.put_again, Fields.put_again]
        exact .error _ _
    · rw [Fields.put_of_ne hkey, Fields.put_of_ne hkey]
      exact (fields.put_concur source source' key h slots).map (slot, ·)

theorem Fields.fill_concur (source source' : Source) :
    ∀ (fields : Fields) (slots : fields.Slots),
      Concur Eq (fields.fill source slots) (fields.fill source' slots)
  | .nil, () => .refl _
  | .cons _ _ _ fields, (some value, slots) =>
    (fields.fill_concur source source' slots).map (value, ·)
  | .cons _ shape (some _) fields, (none, slots) =>
    (shape.conform_concur source source' (Doc.Alike.refl _)).bind_eq fun value =>
      (fields.fill_concur source source' slots).map (value, ·)
  | .cons _ _ none _, (none, _) => .error _ _

end

/-! ### Values of configurable types -/

namespace Configurable

variable {α : Type} [Configurable α] {text text' : String} {json : Json}

/-- A text has a value as a whole if it is one document and nothing else. -/
theorem jsonOfText_eq_ok_iff :
    jsonOfText text = .ok json ↔
      (Document.ofText text).trailing = false ∧ (Document.ofText text).root.json? = some json := by
  rw [jsonOfText, Document.json?]
  cases (Document.ofText text).trailing with
  | true => exact iff_of_false nofun fun h => nomatch h.1
  | false =>
    cases (Document.ofText text).root.json? with
    | none => exact iff_of_false nofun fun h => nomatch h.2
    | some json' =>
      constructor
      · intro h
        cases h
        exact ⟨rfl, rfl⟩
      · rintro ⟨-, h⟩
        cases h
        rfl

/-- Nothing but the document counts of a text behind which nothing stands. -/
theorem ofText_of_trailing (htrailing : (Document.ofText text).trailing = false) :
    (ofText text : Except Fault α) =
      do return ofVal (← (shape α).conform .streamed (Document.ofText text).root) := by
  rw [ofText, htrailing]
  rfl

/-- **Reading a text** has the same outcome as reading the value that the text has as a whole, if no
object of it has a key twice. -/
theorem ofText_concur_ofJson (hjson : jsonOfText text = .ok json)
    (hkeys : (Document.ofText text).root.keysDistinct = true) :
    Concur Eq (ofText text : Except Fault α) (ofJson json) := by
  obtain ⟨htrailing, hroot⟩ := jsonOfText_eq_ok_iff.mp hjson
  have halike : (Document.ofText text).root.Alike (.ofJson json) := Doc.alike_ofJson hroot hkeys
  rw [ofText_of_trailing htrailing, ofJson]
  exact ((shape α).conform_concur .streamed .parsed halike).map ofVal

/-- Texts that differ in the order of members are read with the same outcome. -/
theorem ofText_concur_ofText (htrailing : (Document.ofText text).trailing = false)
    (htrailing' : (Document.ofText text').trailing = false)
    (halike : (Document.ofText text).root.Alike (Document.ofText text').root) :
    Concur Eq (ofText text : Except Fault α) (ofText text') := by
  rw [ofText_of_trailing htrailing, ofText_of_trailing htrailing']
  exact ((shape α).conform_concur .streamed .streamed halike).map ofVal

end Configurable

end Modbus
