import Modbus.Proofs.Config.Agreement
import Modbus.Proofs.Json.RoundTrip

/-!
# Configurations are read as they are written

What a shape writes of a value it reads as that value (`Shape.conform_toJson`), if it writes
different values differently: an optional part must not be optional once more, since null would
stand for two values, and no two fields of a record may have one name (`Shape.isFaithful`). What is
written is plain, too (`Shape.plain_toJson`), so it can be put into a text and read from there as it
comes or as a whole (`Configurable.roundTrips_of_isFaithful`).

`Configurable.written_is_read` says it for descriptors, formats, ranges and periodic actions.
-/

namespace Modbus

/-! ### Shapes that write different values differently -/

/-- The names of the fields of a record, in their order. -/
def Fields.names : Fields → List String
  | .nil => []
  | .cons name _ _ fields => name :: fields.names

/-- Null stands for nothing. -/
def Shape.isOptional : Shape → Bool
  | .optional _ => true
  | _ => false

mutual

/-- No optional part is optional once more, and no record has two fields of one name. -/
def Shape.isFaithful : Shape → Bool
  | .optional shape => !shape.isOptional && shape.isFaithful
  | .list shape => shape.isFaithful
  | .pair first second => first.isFaithful && second.isFaithful
  | .record _ fields => decide fields.names.Nodup && fields.isFaithful
  | _ => true

/-- The shapes of all fields write different values differently. -/
def Fields.isFaithful : Fields → Bool
  | .nil => true
  | .cons _ shape _ fields => shape.isFaithful && fields.isFaithful

end

mutual

/-- How deep arrays and objects nest in what the shape writes. -/
def Shape.depth : Shape → Nat
  | .addressRange => 1
  | .optional shape => shape.depth
  | .list shape => shape.depth + 1
  | .pair first second => max first.depth second.depth + 1
  | .record _ fields => fields.depth + 1
  | _ => 0

/-- How deep arrays and objects nest in the fields of a record. -/
def Fields.depth : Fields → Nat
  | .nil => 0
  | .cons _ shape _ fields => max shape.depth fields.depth

end

/-! ### Parts -/

/-- A whole number within bounds is read. -/
theorem conformInteger_of_mem {wanted : String} {least most n : Int} (hleast : least ≤ n)
    (hmost : n ≤ most) :
    conformInteger wanted least most (.ofJson (.number (.integer n))) = .ok n :=
  if_pos ⟨hleast, hmost⟩

/-- A natural number is read. -/
theorem conformInteger_nat {wanted : String} {most n : Nat} (h : n ≤ most) :
    conformInteger wanted 0 most (.ofJson (.nat n)) = .ok n :=
  conformInteger_of_mem (Int.natCast_nonneg n) (Int.ofNat_le.mpr h)

theorem conformByte_toNat (n : UInt8) : conformByte (.ofJson (.nat n.toNat)) = .ok n := by
  have hread : conformInteger "u8" 0 255 (.ofJson (.nat n.toNat)) = .ok n.toNat :=
    conformInteger_nat (Nat.le_of_lt_succ n.toNat_lt)
  rw [conformByte, hread]
  exact congrArg Except.ok UInt8.ofNat_toNat

section

variable {α β : Type} {read : Doc → Except Fault α} {readSecond : Doc → Except Fault β}

/-- Items that are read back one by one are read back as a list. -/
theorem conformList_map {write : α → Json} (h : ∀ a, read (.ofJson (write a)) = .ok a)
    (values : List α) : conformList read (.ofJson (.array (values.map write))) = .ok values := by
  show (Items.ofJsons (values.map write)).each read = .ok values
  induction values with
  | nil => rfl
  | cons a values ih =>
    rw [List.map_cons, Items.ofJsons, Items.each, h, ih]
    rfl

/-- Two items that are read back are read back as a pair. -/
theorem conformPair_of_ok (source : Source) {first second : Json} {a : α} {b : β}
    (hfirst : read (.ofJson first) = .ok a) (hsecond : readSecond (.ofJson second) = .ok b) :
    conformPair source read readSecond (.ofJson (.array [first, second])) = .ok (a, b) := by
  show (read (.ofJson first) >>= fun _ => readSecond (.ofJson second) >>= fun _ => _) = _
  rw [hfirst, hsecond]
  rfl

/-- What is not null is something. -/
theorem conformOptional_some {a : α} {doc : Doc} (hne : doc ≠ .null) (h : read doc = .ok a) :
    conformOptional read doc = .ok (some a) := by
  rw [conformOptional, h]
  · rfl
  · exact hne

end

/-- The two ends of a range are in order. -/
theorem conformRange_bounds (source : Source) (range : AddressRange) :
    conformRange source (.ofJson (.array [.nat range.low.toNat, .nat range.high.toNat])) =
      .ok range := by
  have hpair : conformPair source conformByte conformByte
      (.ofJson (.array [.nat range.low.toNat, .nat range.high.toNat])) =
        pure (range.low, range.high) :=
    conformPair_of_ok source (conformByte_toNat _) (conformByte_toNat _)
  rw [conformRange, hpair]
  simp only [pure_bind, AddressRange.ofBounds?_bounds]
  rfl

/-- Only an optional part is written as null. -/
theorem Shape.ofJson_toJson_ne_null {shape : Shape} (h : shape.isOptional = false)
    (value : shape.Val) : Doc.ofJson (shape.toJson value) ≠ .null := by
  cases shape with
  | optional => exact nomatch h
  | _ => exact nofun

/-! ### Records -/

namespace Fields

/-- Everything has been read. -/
def slotsOf : (fields : Fields) → fields.Val → fields.Slots
  | .nil, () => ()
  | .cons _ _ _ fields, (value, values) => (some value, fields.slotsOf values)

/-- What has been read is what the fields hold. -/
theorem fill_slotsOf (source : Source) :
    ∀ (fields : Fields) (values : fields.Val),
      fields.fill source (fields.slotsOf values) = .ok values
  | .nil, () => rfl
  | .cons _ _ _ fields, (value, values) => by
    rw [slotsOf, fill, fill_slotsOf source fields values]
    rfl

/-- The members of a record have the names of its fields. -/
theorem keys_toMembers :
    ∀ (fields : Fields) (values : fields.Val),
      (fields.toMembers values).map Prod.fst = fields.names
  | .nil, () => rfl
  | .cons name _ _ fields, (value, values) => by
    rw [toMembers, List.map_cons, keys_toMembers fields values, names]

/-- Members of other names than that of the first field go to the fields behind it. -/
theorem collect_of_notMem {name : String} {shape : Shape} {default : Option Json} {fields : Fields}
    {members : List (String × Json)} (h : name ∉ members.map Prod.fst) (source : Source)
    (slot : Option shape.Val) (slots : fields.Slots) :
    (Members.ofJsons members).collect
        (fun key value slots => (cons name shape default fields).put source key value slots)
        (slot, slots) =
      do
        let slots ← (Members.ofJsons members).collect
          (fun key value slots => fields.put source key value slots) slots
        return (slot, slots) := by
  induction members generalizing slots with
  | nil => rfl
  | cons member members ih =>
    obtain ⟨key, value⟩ := member
    have hkey : key ≠ name := (List.ne_of_not_mem_cons h).symm
    have hkeys : name ∉ members.map Prod.fst := List.not_mem_of_not_mem_cons h
    rw [Members.ofJsons, Members.collect, Members.collect, put_of_ne hkey, bind_assoc, bind_assoc]
    simp only [pure_bind, ih hkeys]

end Fields

/-! ### Reading what a shape writes -/

mutual

/-- **What a shape writes** it reads as the same value, from both sources. -/
theorem Shape.conform_toJson (source : Source) :
    ∀ shape : Shape, shape.isFaithful = true → ∀ value : shape.Val,
      shape.conform source (.ofJson (shape.toJson value)) = .ok value
  | .uint8, _, value => conformByte_toNat value
  | .uint16, _, value => by
    have hread : conformInteger "u16" 0 65535 (.ofJson (.nat value.toNat)) = .ok value.toNat :=
      conformInteger_nat (Nat.le_of_lt_succ value.toNat_lt)
    rw [Shape.conform, Shape.toJson, hread]
    exact congrArg Except.ok UInt16.ofNat_toNat
  | .uint32, _, value => by
    have hread : conformInteger "u32" 0 4294967295 (.ofJson (.nat value.toNat)) =
        .ok value.toNat := conformInteger_nat (Nat.le_of_lt_succ value.toNat_lt)
    rw [Shape.conform, Shape.toJson, hread]
    exact congrArg Except.ok UInt32.ofNat_toNat
  | .int32, _, value => by
    have hread : conformInteger "i32" (-2147483648) 2147483647
        (.ofJson (.number (.integer value.toInt))) = .ok value.toInt :=
      conformInteger_of_mem value.le_toInt (Int.le_of_lt_add_one value.toInt_lt)
    rw [Shape.conform, Shape.toJson, hread]
    exact congrArg Except.ok value.ofInt_toInt
  | .boolean, _, value => rfl
  | .text, _, value => rfl
  | .format, _, format => by
    show conformVariant format.name = .ok format
    rw [conformVariant, Format.ofName?_name]
  | .addressRange, _, range => conformRange_bounds source range
  | .optional shape, h, none => rfl
  | .optional shape, h, some value => by
    obtain ⟨hoptional, hshape⟩ := Bool.and_eq_true_iff.mp h
    exact conformOptional_some
      (Shape.ofJson_toJson_ne_null (Bool.not_eq_eq_eq_not.mp hoptional) value)
      (shape.conform_toJson source hshape value)
  | .list shape, h, values => conformList_map (shape.conform_toJson source h) values
  | .pair first second, h, (a, b) => by
    obtain ⟨hfirst, hsecond⟩ := Bool.and_eq_true_iff.mp h
    exact conformPair_of_ok source (first.conform_toJson source hfirst a)
      (second.conform_toJson source hsecond b)
  | .record name fields, h, values => by
    obtain ⟨hnames, hfields⟩ := Bool.and_eq_true_iff.mp h
    have hcollect := fields.collect_toMembers source (of_decide_eq_true hnames) hfields values
    show ((Members.ofJsons (fields.toMembers values)).collect _ fields.noSlots >>= _) = _
    rw [hcollect]
    exact fields.fill_slotsOf source values

/-- The members that a record writes fill all its fields. -/
theorem Fields.collect_toMembers (source : Source) :
    ∀ fields : Fields, fields.names.Nodup → fields.isFaithful = true → ∀ values : fields.Val,
      (Members.ofJsons (fields.toMembers values)).collect
          (fun key value slots => fields.put source key value slots) fields.noSlots =
        .ok (fields.slotsOf values)
  | .nil, _, _, () => rfl
  | .cons name shape default fields, hnames, h, (value, values) => by
    obtain ⟨hname, hrest⟩ := List.nodup_cons.mp hnames
    obtain ⟨hshape, hfields⟩ := Bool.and_eq_true_iff.mp h
    have hnotMem : name ∉ (fields.toMembers values).map Prod.fst := by
      rw [Fields.keys_toMembers]
      exact hname
    rw [Fields.toMembers, Members.ofJsons, Members.collect, Fields.noSlots, Fields.put_first,
      shape.conform_toJson source hshape value]
    show (Members.ofJsons (fields.toMembers values)).collect _ (some value, fields.noSlots) = _
    rw [Fields.collect_of_notMem hnotMem, fields.collect_toMembers source hrest hfields values]
    rfl

end

/-! ### What a shape writes is plain -/

theorem Json.plain_nat {depth n : Nat} (h : n < Numeral.wordLimit) : (nat n).Plain depth :=
  .integer (Numeral.fits_natCast h)

theorem Json.Plain.pair {depth : Nat} {first second : Json} (hfirst : first.Plain depth)
    (hsecond : second.Plain depth) : (Json.array [first, second]).Plain (depth + 1) :=
  .array (List.forall_mem_cons.mpr ⟨hfirst, List.forall_mem_singleton.mpr hsecond⟩)

mutual

/-- **What a shape writes** is plain. -/
theorem Shape.plain_toJson :
    ∀ shape : Shape, shape.isFaithful = true → ∀ value : shape.Val,
      (shape.toJson value).Plain shape.depth
  | .uint8, _, value => Json.plain_nat (Nat.lt_trans value.toNat_lt (by decide))
  | .uint16, _, value => Json.plain_nat (Nat.lt_trans value.toNat_lt (by decide))
  | .uint32, _, value => Json.plain_nat (Nat.lt_trans value.toNat_lt (by decide))
  | .int32, _, value =>
    .integer ⟨Int.le_trans (by decide) value.le_toInt, Int.lt_trans value.toInt_lt (by decide)⟩
  | .boolean, _, value => .bool value
  | .text, _, value => .text value
  | .format, _, format => .text format.name
  | .addressRange, _, range =>
    .pair (Json.plain_nat (Nat.lt_trans range.low.toNat_lt (by decide)))
      (Json.plain_nat (Nat.lt_trans range.high.toNat_lt (by decide)))
  | .optional _, _, none => .null
  | .optional shape, h, some value =>
    shape.plain_toJson (Bool.and_eq_true_iff.mp h).2 value
  | .list shape, h, values =>
    .array (List.forall_mem_map.mpr fun value _ => shape.plain_toJson h value)
  | .pair first second, h, (a, b) => by
    obtain ⟨hfirst, hsecond⟩ := Bool.and_eq_true_iff.mp h
    exact .pair ((first.plain_toJson hfirst a).mono (Nat.le_max_left _ _))
      ((second.plain_toJson hsecond b).mono (Nat.le_max_right _ _))
  | .record _ fields, h, values => by
    obtain ⟨hnames, hfields⟩ := Bool.and_eq_true_iff.mp h
    refine .object ?_ (fields.plain_toMembers hfields values)
    rw [Fields.keys_toMembers]
    exact of_decide_eq_true hnames

/-- The members that a record writes are plain. -/
theorem Fields.plain_toMembers :
    ∀ fields : Fields, fields.isFaithful = true → ∀ values : fields.Val,
      ∀ member ∈ fields.toMembers values, member.2.Plain fields.depth
  | .nil, _, () => nofun
  | .cons name shape _ fields, h, (value, values) => by
    obtain ⟨hshape, hfields⟩ := Bool.and_eq_true_iff.mp h
    refine List.forall_mem_cons.mpr ⟨?_, fun member hmem => ?_⟩
    · exact (shape.plain_toJson hshape value).mono (Nat.le_max_left _ _)
    · exact (fields.plain_toMembers hfields values member hmem).mono (Nat.le_max_right _ _)

end

/-! ### Configurable types -/

namespace Configurable

/-- A value as a text. -/
def text {α : Type} [Configurable α] (a : α) : String :=
  String.ofList (toJson a).render

/-- A value of the type is what its text is read as, as it comes or as a whole. So what has been
read from any text, either way, is read from its own text again. -/
structure RoundTrips (α : Type) [Configurable α] : Prop where
  ofText_text : ∀ a : α, ofText (text a) = .ok a
  ofJson_text : ∀ a : α, ∃ json, jsonOfText (text a) = .ok json ∧ ofJson json = .ok a
  ofText_again : ∀ (s : String) (a : α), ofText s = .ok a →
    (ofText (text a) : Except Fault α) = ofText s
  ofJson_again : ∀ (s : String) (json : Json) (a : α), jsonOfText s = .ok json →
    ofJson json = .ok a →
      ∃ json', jsonOfText (text a) = .ok json' ∧ (ofJson json' : Except Fault α) = ofJson json

variable {α : Type} [Configurable α]

/-- A type round-trips if its shape writes different values differently, and does not nest deeper
than values may. -/
theorem roundTrips_of_isFaithful (hfaithful : (shape α).isFaithful = true)
    (hdepth : (shape α).depth ≤ maxDepth) : RoundTrips α := by
  have hplain (a : α) : (toJson a).Plain maxDepth :=
    ((shape α).plain_toJson hfaithful (toVal a)).mono hdepth
  have hdoc (a : α) : Document.ofText (text a) = { root := Doc.ofJson (toJson a) } :=
    Document.ofText_render (hplain a)
  have htext (a : α) : ofText (text a) = .ok a := by
    have hconform := (shape α).conform_toJson .streamed hfaithful (toVal a)
    rw [ofText_of_trailing (by rw [hdoc]), hdoc]
    show ((shape α).conform .streamed (.ofJson ((shape α).toJson (toVal a))) >>= _) = _
    rw [hconform]
    exact congrArg Except.ok (ofVal_toVal a)
  have hjson (a : α) : ∃ json, jsonOfText (text a) = .ok json ∧ ofJson json = .ok a := by
    obtain ⟨json, hjson⟩ := (hplain a).exists_jsonWithin?
    have hwhole : jsonOfText (text a) = .ok json := by
      rw [jsonOfText_eq_ok_iff, hdoc]
      exact ⟨rfl, hjson⟩
    have hkeys : (Document.ofText (text a)).root.keysDistinct = true := by
      rw [hdoc]
      exact (hplain a).keysDistinct
    exact ⟨json, hwhole, ((ofText_concur_ofJson hwhole hkeys).eq_ok_iff a).mp (htext a)⟩
  refine ⟨htext, hjson, fun s a hread => ?_, fun s json a _ hread => ?_⟩
  · rw [hread, htext]
  · rw [hread]
    exact hjson a

/-- **Descriptors, formats, ranges and periodic actions** are read as they are written. -/
theorem written_is_read :
    RoundTrips Descriptor ∧ RoundTrips Format ∧ RoundTrips AddressRange ∧ RoundTrips Handler ∧
      RoundTrips WriteAction := by
  refine ⟨?_, ?_, ?_, ?_, ?_⟩ <;> exact roundTrips_of_isFaithful (by decide) (by decide)

/-- Quotes and control characters are escaped, what is not there is null. -/
example : text ({ interpret := .hex, value := some "\x01\"é" } : WriteAction) =
    "\x7b\"shell\":null,\"interpret\":\"HEX\",\"value\":\"\\u0001\\\"é\"\x7d" := by decide

end Configurable

end Modbus
