import Mathlib.Data.List.Nodup
import Modbus.Proofs.Config.Reordering
import Modbus.Proofs.Map.Loading

/-!
# Registers of a map

Registers are added to a map one by one. One is refused if it cannot be used or if there is one at
its address already, and then nothing changes. So after any attempts the map is made of the
registers that were accepted (`DeviceMap.IsMadeOf.insertEach`): each is found under its address, and
they are listed in the order of these. What a map is made of does not depend on the order in which
it came, and neither does whether all of a list are added (`DeviceMap.IsMadeOf.insertAll_perm`).

`Loader.documents_give_registers` says this of the maps of documents, and of a new map that
registers are added to.
-/

namespace Modbus

namespace DeviceMap

variable {map after : DeviceMap} {descriptors : List Descriptor} {descriptor : Descriptor}

/-! ### What a map is made of -/

/-- The registers of the map are these, each under the address of its first word. -/
structure IsMadeOf (map : DeviceMap) (descriptors : List Descriptor) : Prop where
  register_eq_ok_iff : ∀ (address : UInt16) (descriptor : Descriptor),
    map.register address = .ok descriptor ↔
      descriptor ∈ descriptors ∧ descriptor.start = address
  register_eq_error_iff : ∀ (address : UInt16) (e : LookupError),
    map.register address = .error e ↔
      e = .registerNotFound address ∧ ∀ descriptor ∈ descriptors, descriptor.start ≠ address
  /-- None is missing, and none is listed twice. -/
  perm : map.descriptors.Perm descriptors
  ascending : map.descriptors.Pairwise fun first second => first.start < second.start
  keyed : ∀ entry ∈ map.registers.entries, entry.1 = entry.2.start

theorem register_eq_ok_iff_find? {address : UInt16} :
    map.register address = .ok descriptor ↔ map.registers.find? address = some descriptor := by
  rw [register]
  cases map.registers.find? address with
  | none => exact iff_of_false nofun nofun
  | some found => rw [Except.ok.injEq, Option.some.injEq]

theorem register_eq_error_iff_find? {address : UInt16} {e : LookupError} :
    map.register address = .error e ↔
      e = .registerNotFound address ∧ map.registers.find? address = none := by
  rw [register]
  cases map.registers.find? address with
  | none =>
    rw [and_iff_left rfl, Except.error.injEq]
    exact eq_comm
  | some found => exact iff_of_false nofun (fun h => nomatch h.2)

/-- What is found under each address says what a map is made of, if no address is there twice. -/
theorem isMadeOf_of_find? (hdistinct : (descriptors.map Descriptor.start).Nodup)
    (hfind : ∀ (address : UInt16) (descriptor : Descriptor),
      map.registers.find? address = some descriptor ↔
        descriptor ∈ descriptors ∧ descriptor.start = address) :
    map.IsMadeOf descriptors := by
  have hentry : ∀ entry : UInt16 × Descriptor, entry ∈ map.registers.entries ↔
      entry.2 ∈ descriptors ∧ entry.2.start = entry.1 := by
    rintro ⟨address, descriptor⟩
    rw [← Table.find?_eq_some_iff, hfind]
  have hkeyed : ∀ entry ∈ map.registers.entries, entry.1 = entry.2.start :=
    fun entry hmem => ((hentry entry).mp hmem).2.symm
  have hascending : map.descriptors.Pairwise fun first second => first.start < second.start := by
    refine List.pairwise_map.mpr (map.registers.ascending.imp_of_mem ?_)
    intro first second hfirst hsecond hlt
    rw [← hkeyed first hfirst, ← hkeyed second hsecond]
    exact UInt16.lt_iff_toNat_lt.mpr hlt
  refine ⟨fun address descriptor => register_eq_ok_iff_find?.trans (hfind address descriptor),
    fun address e => ?_, ?_, hascending, hkeyed⟩
  · rw [register_eq_error_iff_find?]
    refine and_congr_right fun _ => ⟨fun hnone descriptor hmem hstart => ?_, fun hnone => ?_⟩
    · rw [(hfind address descriptor).mpr ⟨hmem, hstart⟩] at hnone
      cases hnone
    · rw [Option.eq_none_iff_forall_ne_some]
      intro descriptor hsome
      obtain ⟨hmem, hstart⟩ := (hfind address descriptor).mp hsome
      exact hnone descriptor hmem hstart
  · have hnodup : map.descriptors.Nodup :=
      hascending.imp fun hlt heq => absurd (heq ▸ hlt) (UInt16.lt_irrefl _)
    refine (List.perm_ext_iff_of_nodup hnodup (.of_map Descriptor.start hdistinct)).mpr ?_
    intro descriptor
    rw [DeviceMap.descriptors, Table.values, List.mem_map]
    constructor
    · rintro ⟨entry, hmem, rfl⟩
      exact ((hentry entry).mp hmem).1
    · intro hmem
      exact ⟨(descriptor.start, descriptor), (hentry _).mpr ⟨hmem, rfl⟩, rfl⟩

theorem IsMadeOf.find?_eq_some_iff (h : map.IsMadeOf descriptors) {address : UInt16} :
    map.registers.find? address = some descriptor ↔
      descriptor ∈ descriptors ∧ descriptor.start = address :=
  register_eq_ok_iff_find?.symm.trans (h.register_eq_ok_iff address descriptor)

theorem IsMadeOf.find?_eq_none_iff (h : map.IsMadeOf descriptors) {address : UInt16} :
    map.registers.find? address = none ↔
      ∀ descriptor ∈ descriptors, descriptor.start ≠ address := by
  have herror := h.register_eq_error_iff address (.registerNotFound address)
  rwa [register_eq_error_iff_find?, and_iff_right rfl, and_iff_right rfl] at herror

/-- No address is there twice. -/
theorem IsMadeOf.distinct (h : map.IsMadeOf descriptors) :
    (descriptors.map Descriptor.start).Nodup := by
  refine ((h.perm.map Descriptor.start).nodup_iff).mp (List.pairwise_map.mpr ?_)
  exact h.ascending.imp fun hlt heq => absurd (heq ▸ hlt) (UInt16.lt_irrefl _)

/-- Maps that are made of the same registers have the same table of them. -/
theorem IsMadeOf.registers_eq {map' : DeviceMap} {descriptors' : List Descriptor}
    (h : map.IsMadeOf descriptors) (h' : map'.IsMadeOf descriptors')
    (hperm : descriptors.Perm descriptors') : map.registers = map'.registers := by
  refine Table.ext_find? fun address => Option.ext fun descriptor => ?_
  rw [h.find?_eq_some_iff, h'.find?_eq_some_iff, hperm.mem_iff]

theorem isMadeOf_nil (hempty : map.registers = {}) : map.IsMadeOf [] := by
  refine isMadeOf_of_find? List.nodup_nil fun address descriptor => ?_
  rw [hempty, Table.find?_empty]
  exact iff_of_false nofun fun h => List.not_mem_nil h.1

/-! ### Adding registers -/

/-- The register can be used, and none of the others is at its address. -/
def Fits (descriptors : List Descriptor) (descriptor : Descriptor) : Prop :=
  descriptor.fault? = none ∧ ∀ other ∈ descriptors, other.start ≠ descriptor.start

instance (descriptors : List Descriptor) (descriptor : Descriptor) :
    Decidable (Fits descriptors descriptor) :=
  inferInstanceAs (Decidable (_ ∧ _))

/-- A register is added to a map if it fits what the map is made of. -/
theorem IsMadeOf.insert_eq_ok_iff (h : map.IsMadeOf descriptors) :
    map.insert descriptor = .ok after ↔
      Fits descriptors descriptor ∧ after = map.setRegister descriptor.start descriptor := by
  rw [insert, Fits, ← h.find?_eq_none_iff]
  cases hfault : descriptor.fault? with
  | some fault => exact iff_of_false nofun fun hfits => nomatch hfits.1.1
  | none =>
    cases map.registers.find? descriptor.start with
    | some other => exact iff_of_false nofun fun hfits => nomatch hfits.1.2
    | none =>
      simp only [and_self, true_and, Except.ok.injEq]
      exact eq_comm

/-- One more register that fits keeps the addresses distinct. -/
theorem Fits.distinct (hfits : Fits descriptors descriptor)
    (hdistinct : (descriptors.map Descriptor.start).Nodup) :
    ((descriptors ++ [descriptor]).map Descriptor.start).Nodup := by
  rw [List.map_append, List.map_singleton]
  refine List.nodup_append.mpr ⟨hdistinct, List.nodup_singleton _, ?_⟩
  intro address haddress other hother
  obtain ⟨held, hmem, rfl⟩ := List.mem_map.mp haddress
  rw [List.mem_singleton.mp hother]
  exact hfits.2 held hmem

/-- **One more register** that fits. -/
theorem IsMadeOf.setRegister (h : map.IsMadeOf descriptors) (hfits : Fits descriptors descriptor) :
    (map.setRegister descriptor.start descriptor).IsMadeOf (descriptors ++ [descriptor]) := by
  refine isMadeOf_of_find? (hfits.distinct h.distinct) fun address found => ?_
  rw [DeviceMap.setRegister, Table.find?_insert, List.mem_append, List.mem_singleton]
  split
  · next hnumber =>
    obtain rfl := Numbered.number_inj hnumber
    constructor
    · rintro ⟨⟩
      exact ⟨.inr rfl, rfl⟩
    · rintro ⟨hmem | rfl, hstart⟩
      · exact absurd hstart (hfits.2 found hmem)
      · rfl
  · next hnumber =>
    rw [h.find?_eq_some_iff]
    constructor
    · rintro ⟨hmem, hstart⟩
      exact ⟨.inl hmem, hstart⟩
    · rintro ⟨hmem | rfl, hstart⟩
      · exact ⟨hmem, hstart⟩
      · exact absurd (congrArg number hstart).symm hnumber

/-- The outcome of adding a register, and the map after it: the old one if that failed. -/
def attempt (map : DeviceMap) (descriptor : Descriptor) : Except ConfigError Unit × DeviceMap :=
  match map.insert descriptor with
  | .ok after => (.ok (), after)
  | .error e => (.error e, map)

/-- The map with more registers, without those that cannot be added. -/
def insertEach (map : DeviceMap) (descriptors : List Descriptor) : DeviceMap :=
  descriptors.foldl (fun map descriptor => (map.attempt descriptor).2) map

/-- Registers with one more, if it fits. -/
def accept (descriptors : List Descriptor) (descriptor : Descriptor) : List Descriptor :=
  if Fits descriptors descriptor then descriptors ++ [descriptor] else descriptors

/-- The registers of a list that fit, one after the other. -/
def accepted (descriptors : List Descriptor) : List Descriptor :=
  descriptors.foldl accept []

theorem insertEach_cons (map : DeviceMap) (descriptor : Descriptor)
    (descriptors : List Descriptor) :
    map.insertEach (descriptor :: descriptors) =
      (map.attempt descriptor).2.insertEach descriptors := rfl

/-- A register that fits is added, and another one is refused. -/
theorem IsMadeOf.insert_cases (h : map.IsMadeOf descriptors) (descriptor : Descriptor) :
    (Fits descriptors descriptor ∧
      map.insert descriptor = .ok (map.setRegister descriptor.start descriptor)) ∨
    (¬ Fits descriptors descriptor ∧ ∃ e, map.insert descriptor = .error e) := by
  cases hinsert : map.insert descriptor with
  | ok after =>
    obtain ⟨hfits, rfl⟩ := h.insert_eq_ok_iff.mp hinsert
    exact .inl ⟨hfits, rfl⟩
  | error e =>
    refine .inr ⟨fun hfits => ?_, e, rfl⟩
    rw [h.insert_eq_ok_iff.mpr ⟨hfits, rfl⟩] at hinsert
    cases hinsert

/-- An attempt succeeds if the register fits. One that fails leaves the map as it was. -/
theorem IsMadeOf.attempt_outcome (h : map.IsMadeOf descriptors) (descriptor : Descriptor) :
    ((map.attempt descriptor).1 = .ok () ↔ Fits descriptors descriptor) ∧
      ∀ e, (map.attempt descriptor).1 = .error e → (map.attempt descriptor).2 = map := by
  rw [DeviceMap.attempt]
  rcases h.insert_cases descriptor with ⟨hfits, hinsert⟩ | ⟨hfits, e, hinsert⟩
  · rw [hinsert]
    exact ⟨iff_of_true rfl hfits, nofun⟩
  · rw [hinsert]
    exact ⟨iff_of_false nofun hfits, fun _ _ => rfl⟩

/-- **One attempt** leaves a map that is made of the registers that were accepted. -/
theorem IsMadeOf.attempt (h : map.IsMadeOf descriptors) (descriptor : Descriptor) :
    (map.attempt descriptor).2.IsMadeOf (accept descriptors descriptor) := by
  rw [DeviceMap.attempt, accept]
  rcases h.insert_cases descriptor with ⟨hfits, hinsert⟩ | ⟨hfits, e, hinsert⟩
  · rw [hinsert, if_pos hfits]
    exact h.setRegister hfits
  · rw [hinsert, if_neg hfits]
    exact h

/-- **Any attempts** do so too. -/
theorem IsMadeOf.insertEach (h : map.IsMadeOf descriptors) (more : List Descriptor) :
    (map.insertEach more).IsMadeOf (more.foldl accept descriptors) := by
  induction more generalizing map descriptors with
  | nil => exact h
  | cons descriptor more ih => exact ih (h.attempt descriptor)

/-- Nothing but the registers changes. -/
theorem exists_insertEach_eq (map : DeviceMap) (descriptors : List Descriptor) :
    ∃ registers, map.insertEach descriptors = { map with registers } := by
  induction descriptors generalizing map with
  | nil => exact ⟨map.registers, rfl⟩
  | cons descriptor descriptors ih =>
    have hattempt : ∃ registers, (map.attempt descriptor).2 = { map with registers } := by
      rw [DeviceMap.attempt, insert]
      cases descriptor.fault? with
      | some fault => exact ⟨map.registers, rfl⟩
      | none =>
        cases map.registers.find? descriptor.start with
        | some other => exact ⟨map.registers, rfl⟩
        | none => exact ⟨map.registers.insert descriptor.start descriptor, rfl⟩
    obtain ⟨registers, hregisters⟩ := hattempt
    rw [insertEach_cons, hregisters]
    exact ih { map with registers }

/-- A register in front of others fits if no two of all are at the same address. -/
theorem fits_of_distinct {more : List Descriptor} (hfault : descriptor.fault? = none)
    (hdistinct : ((descriptors ++ [descriptor] ++ more).map Descriptor.start).Nodup) :
    Fits descriptors descriptor := by
  refine ⟨hfault, fun other hmem hstart => ?_⟩
  rw [List.map_append, List.map_append, List.map_singleton] at hdistinct
  have hapart := (List.nodup_append.mp (List.nodup_append.mp hdistinct).1).2.2
  exact hapart other.start (List.mem_map_of_mem hmem) _ (List.mem_singleton_self _) hstart

/-- Registers that can all be used and are at different addresses are all accepted. -/
theorem foldl_accept {more : List Descriptor}
    (husable : ∀ descriptor ∈ more, descriptor.fault? = none)
    (hdistinct : ((descriptors ++ more).map Descriptor.start).Nodup) :
    more.foldl accept descriptors = descriptors ++ more := by
  induction more generalizing descriptors with
  | nil => rw [List.append_nil, List.foldl_nil]
  | cons descriptor more ih =>
    obtain ⟨hfault, hrest⟩ := List.forall_mem_cons.mp husable
    rw [List.append_cons] at hdistinct ⊢
    rw [List.foldl_cons, accept, if_pos (fits_of_distinct hfault hdistinct)]
    exact ih hrest hdistinct

/-- **Registers are all added** if they can be used and no two are at the same address. -/
theorem IsMadeOf.insertAll_eq_ok_iff (h : map.IsMadeOf descriptors) {more : List Descriptor} :
    map.insertAll more = .ok after ↔
      (∀ descriptor ∈ more, descriptor.fault? = none) ∧
        ((descriptors ++ more).map Descriptor.start).Nodup ∧ after = map.insertEach more := by
  induction more generalizing map descriptors with
  | nil =>
    have hnil : map.insertAll [] = .ok map := rfl
    rw [hnil, List.append_nil, Except.ok.injEq]
    constructor
    · rintro rfl
      exact ⟨List.forall_mem_nil _, h.distinct, rfl⟩
    · rintro ⟨-, -, rfl⟩
      rfl
  | cons descriptor more ih =>
    have hcons : map.insertAll (descriptor :: more) =
        map.insert descriptor >>= fun next => next.insertAll more := rfl
    rw [hcons, insertEach_cons, DeviceMap.attempt, List.forall_mem_cons, List.append_cons]
    rcases h.insert_cases descriptor with ⟨hfits, hinsert⟩ | ⟨hfits, e, hinsert⟩
    · rw [hinsert, and_assoc, and_iff_right hfits.1]
      exact ih (h.setRegister hfits)
    · rw [hinsert]
      refine iff_of_false nofun ?_
      rintro ⟨⟨hfault, -⟩, hdistinct, -⟩
      exact hfits (fits_of_distinct hfault hdistinct)

/-- **The order in which registers are added** does not matter, if all of them are. -/
theorem IsMadeOf.insertAll_perm (h : map.IsMadeOf descriptors) {more more' : List Descriptor}
    (hperm : more.Perm more') (hall : map.insertAll more = .ok after) :
    map.insertAll more' = .ok after := by
  obtain ⟨husable, hdistinct, rfl⟩ := h.insertAll_eq_ok_iff.mp hall
  have husable' : ∀ descriptor ∈ more', descriptor.fault? = none :=
    fun descriptor hmem => husable descriptor (hperm.mem_iff.mpr hmem)
  have hdistinct' : ((descriptors ++ more').map Descriptor.start).Nodup :=
    (((hperm.append_left descriptors).map Descriptor.start).nodup_iff).mp hdistinct
  refine h.insertAll_eq_ok_iff.mpr ⟨husable', hdistinct', ?_⟩
  have hmade := h.insertEach more
  have hmade' := h.insertEach more'
  rw [foldl_accept husable hdistinct] at hmade
  rw [foldl_accept husable' hdistinct'] at hmade'
  obtain ⟨registers, hregisters⟩ := map.exists_insertEach_eq more
  obtain ⟨registers', hregisters'⟩ := map.exists_insertEach_eq more'
  have hsame := hmade.registers_eq hmade' (hperm.append_left descriptors)
  rw [hregisters, hregisters'] at hsame ⊢
  exact congrArg (fun registers => { map with registers }) hsame

/-! ### New maps and maps of documents -/

section New

variable {new : DeviceMap}

/-- **A map can be made of registers** if these can be used and are at different addresses. -/
theorem exists_insertAll_iff (hnew : new.registers = {}) :
    (∃ map, new.insertAll descriptors = .ok map) ↔
      (∀ descriptor ∈ descriptors, descriptor.check = .ok ()) ∧
        (descriptors.map Descriptor.start).Nodup := by
  simp only [(isMadeOf_nil hnew).insertAll_eq_ok_iff, List.nil_append, Descriptor.check_eq_ok_iff]
  constructor
  · rintro ⟨map, husable, hdistinct, -⟩
    exact ⟨husable, hdistinct⟩
  · rintro ⟨husable, hdistinct⟩
    exact ⟨_, husable, hdistinct, rfl⟩

/-- The map is made of these registers, and everything else is as it was. -/
theorem isMadeOf_of_insertAll (hnew : new.registers = {})
    (h : new.insertAll descriptors = .ok map) :
    map.IsMadeOf descriptors ∧ map = { new with registers := map.registers } := by
  have hnone := isMadeOf_nil hnew
  obtain ⟨husable, hdistinct, rfl⟩ := hnone.insertAll_eq_ok_iff.mp h
  have hmade := hnone.insertEach descriptors
  rw [foldl_accept husable hdistinct] at hmade
  obtain ⟨registers, hregisters⟩ := new.exists_insertEach_eq descriptors
  refine ⟨hmade, ?_⟩
  rw [hregisters]

end New

/-- What a document says of a map, with these registers. -/
def describedBy (config : MapConfig) (registers : Table UInt16 Descriptor) : DeviceMap where
  registers
  range := config.range
  name := config.name
  probe := config.probe
  defaultBaud := config.defaultBaud
  preferredBaud := config.preferredBaud.getD config.defaultBaud
  handlers := config.handlers

theorem ofConfig_eq_describedBy (config : MapConfig) :
    ofConfig config = (describedBy config {}).insertAll config.registers := rfl

theorem isMadeOf_of_ofConfig {config : MapConfig} (h : ofConfig config = .ok map) :
    map.IsMadeOf config.registers ∧ map = describedBy config map.registers :=
  isMadeOf_of_insertAll rfl h

theorem range_of_ofConfig {config : MapConfig} (h : ofConfig config = .ok map) :
    map.range = config.range := by
  rw [(isMadeOf_of_ofConfig h).2]
  rfl

/-- The order of the registers of a document does not matter, if there is a map of it. -/
theorem ofConfig_reordered {config config' : MapConfig} (h : config.Reordered config')
    (hmap : ofConfig config = .ok map) : ofConfig config' = .ok map := by
  obtain ⟨hsame, hperm⟩ := h
  have hdescribed : describedBy config' {} = describedBy config {} := by
    rw [hsame]
    rfl
  rw [ofConfig_eq_describedBy] at hmap ⊢
  rw [hdescribed]
  exact (isMadeOf_nil rfl).insertAll_perm hperm hmap

end DeviceMap

namespace Loader

/-- The step takes in the document of a map. -/
def Step.Loads : Step → MapConfig → Prop
  | .load document, config => Configurable.ofJson document = .ok config
  | .loadText text, config => Configurable.ofText text = .ok config
  | .add _, _ | .loadDirectory _, _ => False

/-- The steps take in documents that differ in the order of the registers and in nothing else. -/
inductive Step.Reordered : Step → Step → Prop
  | load {document document' : Json}
    (h : (Doc.ofJson document).Reordered "registers" 6 (.ofJson document')) :
    Step.Reordered (.load document) (.load document')
  | loadText {text text' : String}
    (htrailing : (Document.ofText text).trailing = (Document.ofText text').trailing)
    (h : (Document.ofText text).root.Reordered "registers" 6 (Document.ofText text').root) :
    Step.Reordered (.loadText text) (.loadText text')

section Loads

variable {loader after : Loader} {step step' : Step} {config config' : MapConfig} {source : String}

theorem Step.Loads.perform_eq (h : step.Loads config) (loader : Loader) :
    loader.perform step = loader.settle (loader.addConfig documentName (.ok config)) := by
  cases step with
  | load document => rw [perform, Loader.load, show Configurable.ofJson document = _ from h]
  | loadText text => rw [perform, Loader.loadText, show Configurable.ofText text = _ from h]
  | add | loadDirectory => exact h.elim

theorem Step.Reordered.exists_loads (h : step.Reordered step') (hloads : step.Loads config) :
    ∃ config', step'.Loads config' ∧ config.Reordered config' := by
  cases h with
  | load h => exact (Configurable.ofJson_reordered h).exists_eq_ok hloads
  | loadText htrailing h =>
    exact (Configurable.ofText_reordered htrailing h).exists_eq_ok hloads

/-- **A document is taken in** if it gives a map and no other map is for one of its device
addresses. -/
theorem addConfig_ok_iff :
    loader.addConfig source (.ok config) = .ok after ↔
      ∃ map, DeviceMap.ofConfig config = .ok map ∧
        (∀ other ∈ loader.maps, other.range.Disjoint config.range) ∧
          after = { maps := loader.maps ++ [map] } := by
  rw [addConfig_eq_ok_iff]
  constructor
  · rintro ⟨content, map, hcontent, hmap, hadd⟩
    cases hcontent
    obtain ⟨⟨-, hapart⟩, rfl⟩ := add_eq_ok_iff.mp hadd
    rw [DeviceMap.range_of_ofConfig hmap] at hapart
    exact ⟨map, hmap, hapart, rfl⟩
  · rintro ⟨map, hmap, hapart, rfl⟩
    rw [← DeviceMap.range_of_ofConfig hmap] at hapart
    have husable := ((DeviceMap.exists_insertAll_iff rfl).mp ⟨map, hmap⟩).1
    have hperm := (DeviceMap.isMadeOf_of_ofConfig hmap).1.perm
    have hcheck : map.check = .ok () := DeviceMap.check_eq_ok_iff.mpr
      fun descriptor hmem => husable descriptor (hperm.mem_iff.mp hmem)
    exact ⟨config, map, rfl, hmap, add_eq_ok_iff.mpr ⟨⟨hcheck, hapart⟩, rfl⟩⟩

theorem addConfig_reordered (h : config.Reordered config')
    (hadd : loader.addConfig source (.ok config) = .ok after) :
    loader.addConfig source (.ok config') = .ok after := by
  obtain ⟨map, hmap, hapart, rfl⟩ := addConfig_ok_iff.mp hadd
  have hrange : config'.range = config.range := by rw [h.1]
  exact addConfig_ok_iff.mpr
    ⟨map, DeviceMap.ofConfig_reordered h hmap, hrange ▸ hapart, rfl⟩

/-- **A step with a document** succeeds if the registers can be used, are at different addresses,
and no other map is for one of the device addresses. -/
theorem Step.Loads.perform_eq_ok_iff (h : step.Loads config) :
    (loader.perform step).1 = .ok () ↔
      (∀ descriptor ∈ config.registers, descriptor.check = .ok ()) ∧
        (config.registers.map Descriptor.start).Nodup ∧
          ∀ other ∈ loader.maps, other.range.Disjoint config.range := by
  have hnew : (DeviceMap.describedBy config {}).registers = {} := rfl
  rw [h.perform_eq, ← and_assoc, ← DeviceMap.exists_insertAll_iff hnew,
    ← DeviceMap.ofConfig_eq_describedBy]
  cases hadd : loader.addConfig documentName (.ok config) with
  | ok after =>
    obtain ⟨map, hmap, hapart, -⟩ := addConfig_ok_iff.mp hadd
    exact iff_of_true rfl ⟨⟨map, hmap⟩, hapart⟩
  | error e =>
    refine iff_of_false nofun ?_
    rintro ⟨⟨map, hmap⟩, hapart⟩
    rw [addConfig_ok_iff.mpr ⟨map, hmap, hapart, rfl⟩] at hadd
    cases hadd

/-- The new map stands behind the others and is made of the registers of the document. -/
theorem Step.Loads.exists_map (h : step.Loads config) (hok : (loader.perform step).1 = .ok ()) :
    ∃ map : DeviceMap, (loader.perform step).2 = { maps := loader.maps ++ [map] } ∧
      map.IsMadeOf config.registers ∧ map = DeviceMap.describedBy config map.registers := by
  rw [h.perform_eq] at hok ⊢
  cases hadd : loader.addConfig documentName (.ok config) with
  | ok after =>
    obtain ⟨map, hmap, -, rfl⟩ := addConfig_ok_iff.mp hadd
    exact ⟨map, rfl, DeviceMap.isMadeOf_of_ofConfig hmap⟩
  | error e =>
    rw [hadd] at hok
    cases hok

/-- A document that is refused leaves the loader as it was. -/
theorem Step.Loads.perform_of_error (h : step.Loads config) {e : ConfigError}
    (herror : (loader.perform step).1 = .error e) : (loader.perform step).2 = loader := by
  rw [h.perform_eq] at herror ⊢
  rcases loader.settle_cases (loader.addConfig documentName (.ok config)) with
    ⟨e', hsettle⟩ | ⟨after, -, hsettle⟩
  · rw [hsettle]
  · rw [hsettle] at herror
    cases herror

/-- **A document whose registers stand in another order** is taken in alike. -/
theorem perform_reordered (hloads : step.Loads config) (h : step.Reordered step')
    (loader : Loader) :
    ((loader.perform step').1 = .ok () ↔ (loader.perform step).1 = .ok ()) ∧
      (loader.perform step').2 = (loader.perform step).2 := by
  obtain ⟨config', hloads', hsame⟩ := h.exists_loads hloads
  rw [hloads.perform_eq, hloads'.perform_eq]
  cases hadd : loader.addConfig documentName (.ok config) with
  | ok after =>
    rw [addConfig_reordered hsame hadd]
    exact ⟨.rfl, rfl⟩
  | error e =>
    cases hadd' : loader.addConfig documentName (.ok config') with
    | ok after =>
      rw [addConfig_reordered hsame.symm hadd'] at hadd
      cases hadd
    | error e' => exact ⟨iff_of_false nofun nofun, rfl⟩

end Loads

/-- **What the registers of a document become.** A document of a map is taken in if its registers
can be used and are at different addresses, and if no other map is for one of its device addresses.
The new map is made of these registers, whatever their order in the document. Otherwise nothing
changes. The same holds of a new map that registers are added to. If one that cannot be added is
passed over, nothing changes, and the map is made of the registers that were accepted. -/
theorem documents_give_registers :
    (∀ (loader : Loader) (step : Step) (config : MapConfig), step.Loads config →
      ((loader.perform step).1 = .ok () ↔
        (∀ descriptor ∈ config.registers, descriptor.check = .ok ()) ∧
          (config.registers.map Descriptor.start).Nodup ∧
            ∀ other ∈ loader.maps, other.range.Disjoint config.range) ∧
      ((loader.perform step).1 = .ok () → ∃ map : DeviceMap,
        (loader.perform step).2 = { maps := loader.maps ++ [map] } ∧
          map.IsMadeOf config.registers ∧
            map = DeviceMap.describedBy config map.registers) ∧
      (∀ e, (loader.perform step).1 = .error e → (loader.perform step).2 = loader) ∧
      ∀ step', step.Reordered step' →
        ((loader.perform step').1 = .ok () ↔ (loader.perform step).1 = .ok ()) ∧
          (loader.perform step').2 = (loader.perform step).2) ∧
    ∀ (new : DeviceMap) (descriptors : List Descriptor), new.registers = {} →
      ((∃ map, new.insertAll descriptors = .ok map) ↔
        (∀ descriptor ∈ descriptors, descriptor.check = .ok ()) ∧
          (descriptors.map Descriptor.start).Nodup) ∧
      (∀ map : DeviceMap, new.insertAll descriptors = .ok map →
        map.IsMadeOf descriptors ∧ map = { new with registers := map.registers } ∧
          ∀ descriptors', descriptors.Perm descriptors' →
            new.insertAll descriptors' = .ok map) ∧
      (new.insertEach descriptors).IsMadeOf (DeviceMap.accepted descriptors) ∧
      ∀ descriptor : Descriptor,
        let map := new.insertEach descriptors
        ((map.attempt descriptor).1 = .ok () ↔
          descriptor.check = .ok () ∧
            ∀ other ∈ DeviceMap.accepted descriptors, other.start ≠ descriptor.start) ∧
        ∀ e, (map.attempt descriptor).1 = .error e → (map.attempt descriptor).2 = map := by
  refine ⟨fun loader step config hloads => ?_, fun new descriptors hnew => ?_⟩
  · exact ⟨hloads.perform_eq_ok_iff, hloads.exists_map, fun e => hloads.perform_of_error,
      fun step' hsame => perform_reordered hloads hsame loader⟩
  · have hnone := DeviceMap.isMadeOf_nil hnew
    have hmade : (new.insertEach descriptors).IsMadeOf (DeviceMap.accepted descriptors) :=
      hnone.insertEach descriptors
    refine ⟨DeviceMap.exists_insertAll_iff hnew, fun map hmap => ?_, hmade, fun descriptor => ?_⟩
    · obtain ⟨hmadeOf, hrest⟩ := DeviceMap.isMadeOf_of_insertAll hnew hmap
      exact ⟨hmadeOf, hrest, fun descriptors' hperm => hnone.insertAll_perm hperm hmap⟩
    · rw [Descriptor.check_eq_ok_iff]
      exact hmade.attempt_outcome descriptor

/-- Two registers in the document of a map, in either order. -/
theorem documents_give_registers_two :
    let rpm : Json := .object [("begin", .nat 0), ("length", .nat 1), ("name", .text "rpm")]
    let volts : Json := .object [("begin", .nat 4), ("length", .nat 2), ("name", .text "volts")]
    let document (registers : List Json) : Json := .array [.text "fan", .array [.nat 2, .nat 3],
      .nat 9, .nat 300, .null, .array [], .array registers]
    let step : Step := .load (document [volts, rpm])
    let step' : Step := .load (document [rpm, volts])
    step.Reordered step' ∧ (perform {} step).1 = .ok () ∧ (perform {} step').1 = .ok () ∧
      ∃ map : DeviceMap, (perform {} step).2 = { maps := [map] } ∧
        (perform {} step').2 = { maps := [map] } ∧
        map.descriptors.Pairwise (fun first second => first.start < second.start) ∧
        map.descriptors.length = 2 := by
  intro rpm volts document step step'
  obtain ⟨config, hconfig⟩ : ∃ config : MapConfig,
      Configurable.ofJson (document [volts, rpm]) = .ok config := ⟨_, rfl⟩
  have hreordered : step.Reordered step' := by
    refine .load (.array ?_)
    exact .there _ (.there _ (.there _ (.there _ (.there _ (.there _ (.here (.swap _ _ _) _))))))
  have hok : (perform {} step).1 = .ok () := rfl
  obtain ⟨-, hmade, -, hsame⟩ := documents_give_registers.1 {} step config hconfig
  obtain ⟨map, hloader, hmadeOf, -⟩ := hmade hok
  obtain ⟨hok', hloader'⟩ := hsame step' hreordered
  refine ⟨hreordered, hok, hok'.mpr hok, map, hloader, hloader'.trans hloader,
    hmadeOf.ascending, ?_⟩
  rw [hmadeOf.perm.length_eq]
  cases hconfig
  rfl

end Loader

end Modbus
