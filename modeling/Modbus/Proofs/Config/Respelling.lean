import Modbus.Proofs.Config.Parts

/-!
# Other spellings of a configuration

The same can be written in different ways: with members that nobody knows, with a value written out
that would count anyway, with a record as an array in the place of an object. `Shape.Respelled` is
made of such steps, at any place of a document and as many as one likes. Each of them changes the
parts of one record at most, and none of them what is read of a part, so the whole is read as before
(`Shape.Respelled.readsLike`).
-/

namespace Modbus

/-! ### Fields by name and by place -/

namespace Items

/-- The array of a list of documents. -/
def ofDocs : List Doc → Items
  | [] => .closed
  | doc :: docs => .cons doc (ofDocs docs)

/-- One item of a list is read like another. -/
theorem each_replaced {α : Type} {read : Doc → Except Fault α} {item item' : Doc}
    (hread : ∀ value, read item = .ok value → read item' = .ok value) (after : List Doc) :
    ∀ (before : List Doc) {values : List α},
      (ofDocs (before ++ item :: after)).each read = .ok values →
        (ofDocs (before ++ item' :: after)).each read = .ok values
  | [], values, h => by
    obtain ⟨value, hvalue, h⟩ := bind_eq_ok_iff.mp h
    exact bind_eq_ok_iff.mpr ⟨value, hread value hvalue, h⟩
  | first :: before, values, h => by
    obtain ⟨value, hvalue, h⟩ := bind_eq_ok_iff.mp h
    obtain ⟨rest, hrest, ⟨⟩⟩ := bind_eq_ok_iff.mp h
    refine bind_eq_ok_iff.mpr ⟨value, hvalue, bind_eq_ok_iff.mpr ⟨rest, ?_, rfl⟩⟩
    exact each_replaced hread after before hrest

end Items

namespace Fields

/-- The shape of the field of a name, and what counts when it is left out. -/
def field? (key : String) : Fields → Option (Shape × Option Json)
  | .nil => none
  | .cons name shape default fields =>
    if key = name then some (shape, default) else fields.field? key

/-- The shape of the field in a place, and what counts when it is left out. -/
def fieldAt? : Fields → ℕ → Option (Shape × Option Json)
  | .nil, _ => none
  | .cons _ shape default _, 0 => some (shape, default)
  | .cons _ _ _ fields, index + 1 => fields.fieldAt? index

end Fields

/-- The members are the same, but for those of one key. -/
def Members.SameBut (key : String) (members members' : Members) : Prop :=
  members.without key = members'.without key

/-! ### Spellings -/

/-- Two spellings of a part of a document. Records stand in lists and in records. -/
inductive Shape.Respelled : Shape → Doc → Doc → Prop
  | refl (shape : Shape) (doc : Doc) : Respelled shape doc doc
  | trans {shape : Shape} {doc doc' doc'' : Doc} (hfirst : Respelled shape doc doc')
      (hsecond : Respelled shape doc' doc'') : Respelled shape doc doc''
  /-- An item of a list is spelled in another way. -/
  | item {shape : Shape} {item item' : Doc} (before after : List Doc)
      (h : Respelled shape item item') :
      Respelled (.list shape) (.array (.ofDocs (before ++ item :: after)))
        (.array (.ofDocs (before ++ item' :: after)))
  /-- A field of an object is spelled in another way. -/
  | member {name : String} {fields : Fields} {members members' : Members} {key : String}
      {shape : Shape} {default : Option Json} {value value' : Doc}
      (hfield : fields.field? key = some (shape, default)) (hsame : members.SameBut key members')
      (hvalue : members.values key = [value]) (hvalue' : members'.values key = [value'])
      (h : Respelled shape value value') :
      Respelled (.record name fields) (.object members) (.object members')
  /-- A field of an array is spelled in another way. -/
  | place {name : String} {fields : Fields} {shape : Shape} {default : Option Json}
      {item item' : Doc} (before after : List Doc)
      (hfield : fields.fieldAt? before.length = some (shape, default))
      (h : Respelled shape item item') :
      Respelled (.record name fields) (.array (.ofDocs (before ++ item :: after)))
        (.array (.ofDocs (before ++ item' :: after)))
  /-- Members that are no fields are put anywhere in an object. -/
  | unknown {name : String} {fields : Fields} {members members' : Members} {key : String}
      (hfield : fields.field? key = none) (hsame : members.SameBut key members')
      (hwhole : ∀ value ∈ members'.values key, value.isWhole = true) :
      Respelled (.record name fields) (.object members) (.object members')
  /-- What counts for a field that is left out is written out in an object. -/
  | written {name : String} {fields : Fields} {members members' : Members} {key : String}
      {shape : Shape} {default : Json} (hfield : fields.field? key = some (shape, some default))
      (hsame : members.SameBut key members') (hnone : members.values key = [])
      (hdefault : members'.values key = [.ofJson default]) :
      Respelled (.record name fields) (.object members) (.object members')
  /-- An object becomes the array of its parts. -/
  | arranged {name : String} {fields : Fields} {members : Members} {parts : List Doc}
      (hparts : fields.Finds members parts) :
      Respelled (.record name fields) (.object members) (.array (.ofDocs parts))
  /-- What counts for the next field is written out at the end of an array. -/
  | lengthened {name : String} {fields : Fields} {docs : List Doc} {shape : Shape} {default : Json}
      (hfield : fields.fieldAt? docs.length = some (shape, some default)) :
      Respelled (.record name fields) (.array (.ofDocs docs))
        (.array (.ofDocs (docs ++ [.ofJson default])))
  /-- What counts for the last field anyway is left out at the end of an array. -/
  | shortened {name : String} {fields : Fields} {docs : List Doc} {shape : Shape} {default : Json}
      (hfield : fields.fieldAt? docs.length = some (shape, some default)) :
      Respelled (.record name fields) (.array (.ofDocs (docs ++ [.ofJson default])))
        (.array (.ofDocs docs))

/-! ### The parts of another spelling -/

namespace Fields

/-- The parts are related one by one, each by the relation of its shape. -/
def Related (R : Shape → Doc → Doc → Prop) : Fields → List Doc → List Doc → Prop
  | .cons _ shape _ fields, part :: parts, part' :: parts' =>
    R shape part part' ∧ fields.Related R parts parts'
  | _, parts, parts' => parts = parts'

section Related

variable {R : Shape → Doc → Doc → Prop} (hrefl : ∀ shape part, R shape part part)

include hrefl

theorem related_refl : ∀ (fields : Fields) (parts : List Doc), fields.Related R parts parts
  | .nil, _ | .cons _ _ _ _, [] => rfl
  | .cons _ shape _ fields, part :: parts => ⟨hrefl shape part, related_refl fields parts⟩

/-- The parts of an object change with the values of one key. -/
theorem Finds.exists_related {fields : Fields} {members members' : Members} {parts : List Doc}
    (hparts : fields.Finds members parts) {key : String} (hsame : members.SameBut key members')
    (hunknown : fields.field? key = none → ∀ value ∈ members'.values key, value.isWhole = true)
    (hknown : ∀ shape default, fields.field? key = some (shape, default) →
      ∀ part, IsPart default (members.values key) part →
        ∃ part', IsPart default (members'.values key) part' ∧ R shape part part') :
    ∃ parts', fields.Finds members' parts' ∧ fields.Related R parts parts' := by
  induction hparts generalizing members' with
  | @nil members hskip =>
    refine ⟨[], .nil ?_, rfl⟩
    rw [Members.isSkippable_eq key, Bool.and_eq_true] at hskip ⊢
    exact ⟨hsame ▸ hskip.1, List.all_eq_true.mpr (hunknown rfl)⟩
  | @cons name shape default fields members part parts hpart hparts ih =>
    by_cases hkey : key = name
    · obtain rfl := hkey
      obtain ⟨part', hpart', hrelated⟩ := hknown shape default (if_pos rfl) part hpart
      rw [hsame] at hparts
      exact ⟨part' :: parts, .cons hpart' hparts, hrelated, related_refl hrefl fields parts⟩
    · have hvalues : members.values name = members'.values name := by
        rw [← Members.values_without hkey members, hsame, Members.values_without hkey]
      have hwithout : (members.without name).SameBut key (members'.without name) := by
        rw [Members.SameBut, Members.without_comm, hsame, Members.without_comm]
      have hfield : (Fields.cons name shape default fields).field? key = fields.field? key :=
        if_neg hkey
      rw [hfield] at hunknown hknown
      obtain ⟨parts', hparts', hrelated⟩ := ih hwithout
        (by rwa [Members.values_without (Ne.symm hkey)])
        (by rwa [Members.values_without (Ne.symm hkey), Members.values_without (Ne.symm hkey)])
      exact ⟨part :: parts', .cons (hvalues ▸ hpart) hparts', hrefl shape part, hrelated⟩

/-- The parts of an array change with one item. -/
theorem Lists.exists_related {shape : Shape} {default : Option Json} {item item' : Doc}
    (hitem : R shape item item') (after : List Doc) :
    ∀ {fields : Fields} (before : List Doc) {parts : List Doc},
      fields.Lists (.ofDocs (before ++ item :: after)) parts →
        fields.fieldAt? before.length = some (shape, default) →
          ∃ parts', fields.Lists (.ofDocs (before ++ item' :: after)) parts' ∧
            fields.Related R parts parts'
  | _, [], _, .item hparts, hfield => by
    cases hfield
    exact ⟨_, .item hparts, hitem, related_refl hrefl _ _⟩
  | _, first :: before, _, .item hparts, hfield => by
    obtain ⟨parts', hparts', hrelated⟩ := exists_related hitem after before hparts hfield
    exact ⟨_, .item hparts', hrefl _ first, hrelated⟩

end Related

/-- What is read of parts that are related is read of the first parts and of those behind them. -/
theorem Holds.uncons {R : Shape → Doc → Doc → Prop} {source : Source} {name : String}
    {shape : Shape} {default : Option Json} {fields : Fields} {parts parts' : List Doc}
    {value : shape.Val} {values : fields.Val}
    (hholds : (Fields.cons name shape default fields).Holds source parts (value, values))
    (hrelated : (Fields.cons name shape default fields).Related R parts parts') :
    ∃ part rest part' rest', parts = part :: rest ∧ parts' = part' :: rest' ∧
      shape.conform source part = .ok value ∧ R shape part part' ∧
      fields.Holds source rest values ∧ fields.Related R rest rest' :=
  match parts, parts', hholds, hrelated with
  | part :: rest, part' :: rest', ⟨hheld, hholds⟩, ⟨hpart, hparts⟩ =>
    ⟨part, rest, part', rest', rfl, rfl, hheld, hpart, hholds, hparts⟩

/-- An object and the array of its parts have the same parts. -/
theorem Finds.lists {fields : Fields} {members : Members} {parts : List Doc}
    (hparts : fields.Finds members parts) : fields.Lists (.ofDocs parts) parts := by
  induction hparts with
  | nil => exact .nil
  | cons _ _ ih => exact .item ih

/-- What counts for a field that is left out can stand at the end of an array. -/
theorem lists_append_default_iff {shape : Shape} {default : Json} :
    ∀ {fields : Fields} (docs : List Doc) {parts : List Doc},
      fields.fieldAt? docs.length = some (shape, some default) →
        (fields.Lists (.ofDocs (docs ++ [.ofJson default])) parts ↔
          fields.Lists (.ofDocs docs) parts)
  | .nil, _, _, hfield => nomatch hfield
  | .cons _ _ _ _, [], _, hfield => by
    cases hfield
    constructor
    · rintro (_ | hparts)
      exact .default hparts
    · rintro (_ | _ | hparts)
      exact .item hparts
  | .cons _ _ _ _, doc :: docs, _, hfield => by
    constructor
    · rintro (_ | hparts)
      exact .item ((lists_append_default_iff docs hfield).mp hparts)
    · rintro (_ | hparts)
      exact .item ((lists_append_default_iff docs hfield).mpr hparts)

end Fields

/-! ### Reading another spelling -/

namespace Shape

/-- What is read of one part is read of the other, too. -/
def ReadsLike (source : Source) (shape : Shape) (part part' : Doc) : Prop :=
  ∀ value : shape.Val, shape.conform source part = .ok value →
    shape.conform source part' = .ok value

theorem readsLike_refl (source : Source) (shape : Shape) (part : Doc) :
    shape.ReadsLike source part part :=
  fun _ hvalue => hvalue

/-- Parts that are read alike hold the same. -/
theorem holds_of_related {source : Source} :
    ∀ {fields : Fields} {parts parts' : List Doc} {values : fields.Val},
      fields.Related (ReadsLike source) parts parts' →
        fields.Holds source parts values → fields.Holds source parts' values
  | .nil, _, _, (), hrelated, hholds => hrelated ▸ hholds
  | .cons _ _ _ _, _ :: _, _ :: _, (value, _), ⟨hpart, hparts⟩, ⟨hheld, hholds⟩ =>
    ⟨hpart value hheld, holds_of_related hparts hholds⟩

variable {source : Source} {name : String} {fields : Fields}

/-- A record is read like another if their parts are. -/
theorem readsLike_record {doc doc' : Doc}
    (h : ∀ parts, fields.PartsOf doc parts →
      ∃ parts', fields.PartsOf doc' parts' ∧ fields.Related (ReadsLike source) parts parts') :
    (record name fields).ReadsLike source doc doc' := by
  intro values hread
  obtain ⟨parts, hparts, hholds⟩ := conform_record_eq_ok_iff.mp hread
  obtain ⟨parts', hparts', hrelated⟩ := h parts hparts
  exact conform_record_eq_ok_iff.mpr ⟨parts', hparts', holds_of_related hrelated hholds⟩

/-- A record with the same parts is read alike. -/
theorem readsLike_of_partsOf {doc doc' : Doc}
    (h : ∀ parts, fields.PartsOf doc parts → fields.PartsOf doc' parts) :
    (record name fields).ReadsLike source doc doc' :=
  readsLike_record fun parts hparts =>
    ⟨parts, h parts hparts, Fields.related_refl (readsLike_refl source) fields parts⟩

/-- An object is read like another that has the same members but for those of one key. -/
theorem readsLike_object {members members' : Members} {key : String}
    (hsame : members.SameBut key members')
    (hunknown : fields.field? key = none → ∀ value ∈ members'.values key, value.isWhole = true)
    (hknown : ∀ shape default, fields.field? key = some (shape, default) →
      ∀ part, Fields.IsPart default (members.values key) part →
        ∃ part', Fields.IsPart default (members'.values key) part' ∧
          shape.ReadsLike source part part') :
    (record name fields).ReadsLike source (.object members) (.object members') := by
  refine readsLike_record ?_
  rintro parts (hparts | _)
  obtain ⟨parts', hparts', hrelated⟩ :=
    hparts.exists_related (readsLike_refl source) hsame hunknown hknown
  exact ⟨parts', .object hparts', hrelated⟩

/-- **Another spelling** is read as the first. -/
theorem Respelled.readsLike {shape : Shape} {doc doc' : Doc} (h : shape.Respelled doc doc')
    (source : Source) : shape.ReadsLike source doc doc' := by
  induction h with
  | refl shape doc => exact readsLike_refl source shape doc
  | trans _ _ ih ih' => exact fun value hvalue => ih' value (ih value hvalue)
  | item before after _ ih =>
    intro values hvalues
    exact Items.each_replaced ih after before hvalues
  | @member _ _ _ _ _ shape default value value' hfield hsame hvalue hvalue' _ ih =>
    refine readsLike_object hsame (fun hnone => nomatch hnone.symm.trans hfield) ?_
    intro shape' default' hfield' part hpart
    cases hfield.symm.trans hfield'
    rw [hvalue, Fields.isPart_singleton_iff] at hpart
    exact ⟨value', .inl hvalue', hpart ▸ ih⟩
  | @place name fields shape default item item' before after hfield _ ih =>
    refine readsLike_record ?_
    rintro parts (_ | hparts)
    obtain ⟨parts', hparts', hrelated⟩ :=
      hparts.exists_related (readsLike_refl source) ih after before hfield
    exact ⟨parts', .array hparts', hrelated⟩
  | unknown hfield hsame hwhole =>
    exact readsLike_object hsame (fun _ => hwhole)
      fun shape default hfield' => nomatch hfield.symm.trans hfield'
  | @written _ _ _ _ _ shape default hfield hsame hnone hdefault =>
    refine readsLike_object hsame (fun hnone => nomatch hnone.symm.trans hfield) ?_
    intro shape' default' hfield' part hpart
    cases hfield.symm.trans hfield'
    rw [hnone, Fields.isPart_nil_iff] at hpart
    obtain ⟨_, ⟨⟩, rfl⟩ := hpart
    exact ⟨_, .inl hdefault, readsLike_refl source shape _⟩
  | arranged hparts =>
    refine readsLike_of_partsOf ?_
    rintro parts (hparts' | _)
    exact .array (hparts'.unique hparts ▸ hparts.lists)
  | @lengthened name fields docs shape default hfield =>
    refine readsLike_of_partsOf ?_
    rintro parts (_ | hparts)
    exact .array ((Fields.lists_append_default_iff docs hfield).mpr hparts)
  | @shortened name fields docs shape default hfield =>
    refine readsLike_of_partsOf ?_
    rintro parts (_ | hparts)
    exact .array ((Fields.lists_append_default_iff docs hfield).mp hparts)

end Shape

end Modbus
