import Mathlib.Logic.Relation
import Modbus.Proofs.Map.Separation

/-!
# What a loader holds

A loader admits a map (`Loader.Admits`) if all registers of the map can be used and if it is for no
address that a map is for already. These maps it takes in (`Loader.add_eq_ok_iff`). Nothing else
changes a loader: whatever a step does, it takes in maps that come with it, one after the other
(`Loader.takes_perform`), and a step that is about a single map takes that one in or leaves the
loader as it was (`Loader.perform_of_isSingle`). So after any steps all maps can be used, and they
are apart (`Loader.isSound_run`).

`Loader.run_keeps_maps_apart` puts this together with what the database of such a loader finds.
-/

namespace Modbus

/-- A descriptor passes the check if there is no fault in it. -/
theorem Descriptor.check_eq_ok_iff {descriptor : Descriptor} :
    descriptor.check = .ok () ↔ descriptor.fault? = none := by
  rw [check]
  cases descriptor.fault? with
  | none => exact iff_of_true rfl rfl
  | some fault => exact iff_of_false (by rintro ⟨⟩) (by rintro ⟨⟩)

/-- A map passes the check if all its descriptors do. -/
theorem DeviceMap.check_eq_ok_iff {map : DeviceMap} :
    map.check = .ok () ↔ ∀ descriptor ∈ map.descriptors, descriptor.check = .ok () := by
  have hnone : map.descriptors.findSome? Descriptor.fault? = none ↔
      ∀ descriptor ∈ map.descriptors, descriptor.check = .ok () := by
    simp only [List.findSome?_eq_none_iff, Descriptor.check_eq_ok_iff]
  rw [← hnone, check]
  cases map.descriptors.findSome? Descriptor.fault? with
  | none => exact iff_of_true rfl rfl
  | some fault => exact iff_of_false (by rintro ⟨⟩) (by rintro ⟨⟩)

/-- The map is that of a document. -/
def DeviceMap.IsDocumented (map : DeviceMap) : Prop :=
  ∃ config, ofConfig config = .ok map

namespace Loader

/-- The map passes the check and is for no address that another one is for. -/
def Admits (loader : Loader) (map : DeviceMap) : Prop :=
  map.check = .ok () ∧ ∀ other ∈ loader.maps, other.range.Disjoint map.range

/-- **A map is taken in** if the loader admits it. It then stands behind the others. -/
theorem add_eq_ok_iff {loader after : Loader} {map : DeviceMap} :
    loader.add map = .ok after ↔
      loader.Admits map ∧ after = { maps := loader.maps ++ [map] } := by
  rw [add, Admits]
  cases hcheck : map.check with
  | error e => exact iff_of_false (by rintro ⟨⟩) (by rintro ⟨⟨⟨⟩, -⟩, -⟩)
  | ok _ =>
    rw [and_iff_right rfl]
    cases hfind : loader.maps.find? fun other => other.range.overlaps map.range with
    | none =>
      have hapart : ∀ other ∈ loader.maps, other.range.Disjoint map.range :=
        fun other hmem => AddressRange.overlaps_eq_false_iff.mp
          (Bool.eq_false_iff.mpr (List.find?_eq_none.mp hfind other hmem))
      rw [and_iff_right hapart]
      constructor
      · rintro ⟨⟩
        rfl
      · rintro rfl
        rfl
    | some other =>
      refine iff_of_false (by rintro ⟨⟩) ?_
      rintro ⟨hapart, -⟩
      have hdisjoint := hapart other (List.mem_of_find?_eq_some hfind)
      have hoverlaps := List.find?_some hfind
      rw [AddressRange.overlaps_eq_false_iff.mpr hdisjoint] at hoverlaps
      exact Bool.false_ne_true hoverlaps

/-- The map of a document is taken in if the document is one of a map. -/
theorem addConfig_eq_ok_iff {loader after : Loader} {source : String}
    {config : Except Fault MapConfig} :
    loader.addConfig source config = .ok after ↔
      ∃ content map, config = .ok content ∧ DeviceMap.ofConfig content = .ok map ∧
        loader.add map = .ok after := by
  cases config with
  | error fault => exact iff_of_false (by rintro ⟨⟩) (by rintro ⟨content, map, ⟨⟩, -⟩)
  | ok content =>
    show (DeviceMap.ofConfig content >>= fun map => loader.add map) = _ ↔ _
    cases hmap : DeviceMap.ofConfig content with
    | error e =>
      refine iff_of_false (by rintro ⟨⟩) ?_
      rintro ⟨_, map, ⟨⟩, hmap', -⟩
      rw [hmap] at hmap'
      cases hmap'
    | ok map =>
      constructor
      · intro hadd
        exact ⟨content, map, rfl, hmap, hadd⟩
      · rintro ⟨_, map', ⟨⟩, hmap', hadd⟩
        rw [hmap] at hmap'
        cases hmap'
        exact hadd

/-! ### What a step does -/

/-- The second loader is the first with one more map taken in. -/
def Takes (loader after : Loader) : Prop :=
  ∃ map, loader.add map = .ok after

/-- The step is about a single map, not about a directory of them. -/
def Step.isSingle : Step → Bool
  | .loadDirectory _ => false
  | _ => true

/-- The map that a step is about, if it gives one. -/
def Step.Gives : Step → DeviceMap → Prop
  | .add map, given => given = map
  | .load document, given =>
    ∃ config, Configurable.ofJson document = .ok config ∧ DeviceMap.ofConfig config = .ok given
  | .loadText text, given =>
    ∃ config, Configurable.ofText text = .ok config ∧ DeviceMap.ofConfig config = .ok given
  | .loadDirectory _, _ => False

/-- The map may come with the step: as it is, or as that of a document. -/
def Step.Brings : Step → DeviceMap → Prop
  | .add map, brought => brought = map
  | .load _, brought | .loadText _, brought | .loadDirectory _, brought => brought.IsDocumented

/-- The second loader is the first with one more map taken in, which comes with the step. -/
def Step.Takes (step : Step) (loader after : Loader) : Prop :=
  ∃ map, step.Brings map ∧ loader.add map = .ok after

theorem Step.Takes.takes {step : Step} {loader after : Loader} (h : step.Takes loader after) :
    loader.Takes after := by
  obtain ⟨map, -, hadd⟩ := h
  exact ⟨map, hadd⟩

theorem Step.Gives.brings {step : Step} {map : DeviceMap} (h : step.Gives map) :
    step.Brings map := by
  cases step with
  | add given => exact h
  | load document | loadText text =>
    obtain ⟨config, -, hmap⟩ := h
    exact ⟨config, hmap⟩
  | loadDirectory directory => exact h.elim

theorem settle_cases (loader : Loader) (outcome : Except ConfigError Loader) :
    (∃ e, loader.settle outcome = (.error e, loader)) ∨
      ∃ after, outcome = .ok after ∧ loader.settle outcome = (.ok (), after) := by
  cases outcome with
  | error e => exact .inl ⟨e, rfl⟩
  | ok after => exact .inr ⟨after, rfl, rfl⟩

/-- The map of a document is not taken in and nothing changes, or it is taken in. -/
theorem settle_addConfig_cases (loader : Loader) (source : String)
    (config : Except Fault MapConfig) :
    (∃ e, loader.settle (loader.addConfig source config) = (.error e, loader)) ∨
      ∃ map after, (∃ content, config = .ok content ∧ DeviceMap.ofConfig content = .ok map) ∧
        loader.add map = .ok after ∧
          loader.settle (loader.addConfig source config) = (.ok (), after) := by
  refine (loader.settle_cases (loader.addConfig source config)).imp_right ?_
  rintro ⟨after, hafter, hsettle⟩
  obtain ⟨content, map, hconfig, hmap, hadd⟩ := addConfig_eq_ok_iff.mp hafter
  exact ⟨map, after, ⟨content, hconfig, hmap⟩, hadd, hsettle⟩

/-- **A step about a single map** fails and changes nothing, or takes that map in. -/
theorem perform_of_isSingle (loader : Loader) {step : Step} (h : step.isSingle = true) :
    (∃ e, loader.perform step = (.error e, loader)) ∨
      ∃ map after, step.Gives map ∧ loader.add map = .ok after ∧
        loader.perform step = (.ok (), after) := by
  cases step with
  | add map =>
    refine (loader.settle_cases (loader.add map)).imp_right ?_
    rintro ⟨after, hadd, hsettle⟩
    exact ⟨map, after, rfl, hadd, hsettle⟩
  | load document =>
    exact loader.settle_addConfig_cases documentName (Configurable.ofJson document)
  | loadText text =>
    exact loader.settle_addConfig_cases documentName (Configurable.ofText text)
  | loadDirectory directory => cases h

/-- A step that gives a map which can be taken in takes it in. -/
theorem perform_of_gives {loader after : Loader} {step : Step} {map : DeviceMap}
    (hgives : step.Gives map) (hadd : loader.add map = .ok after) :
    loader.perform step = (.ok (), after) := by
  cases step with
  | add given =>
    obtain rfl : map = given := hgives
    rw [perform, hadd, settle]
  | load document =>
    obtain ⟨config, hconfig, hmap⟩ := hgives
    have hload : loader.load document = .ok after :=
      addConfig_eq_ok_iff.mpr ⟨config, map, hconfig, hmap, hadd⟩
    rw [perform, hload, settle]
  | loadText text =>
    obtain ⟨config, hconfig, hmap⟩ := hgives
    have hload : loader.loadText text = .ok after :=
      addConfig_eq_ok_iff.mpr ⟨config, map, hconfig, hmap, hadd⟩
    rw [perform, hload, settle]
  | loadDirectory directory => exact hgives.elim

theorem takes_of_loadEntry {loader after : Loader} {path : PathName} {entry : Entry}
    (h : loader.loadEntry path entry = .ok after) (directory : Directory) :
    (Step.loadDirectory directory).Takes loader after := by
  rw [loadEntry] at h
  cases htext : entry.text? with
  | none =>
    rw [htext] at h
    cases h
  | some text =>
    rw [htext] at h
    obtain ⟨content, map, -, hmap, hadd⟩ := addConfig_eq_ok_iff.mp h
    exact ⟨map, ⟨content, hmap⟩, hadd⟩

theorem takes_loadEntries (loader : Loader) (path : PathName) (entries : List Entry)
    (directory : Directory) :
    Relation.ReflTransGen (Step.loadDirectory directory).Takes loader
      (loader.loadEntries path entries).2 := by
  induction entries generalizing loader with
  | nil => exact .refl
  | cons entry entries ih =>
    rw [loadEntries]
    cases hentry : loader.loadEntry path entry with
    | error e => exact .refl
    | ok after => exact .head (takes_of_loadEntry hentry directory) (ih after)

/-- **Whatever a step does** to a loader, it takes in maps that come with it, one after the
other. -/
theorem takes_perform (loader : Loader) (step : Step) :
    Relation.ReflTransGen step.Takes loader (loader.perform step).2 := by
  cases hsingle : step.isSingle with
  | true =>
    rcases loader.perform_of_isSingle hsingle with
      ⟨e, hperform⟩ | ⟨map, after, hgives, hadd, hperform⟩
    · rw [hperform]
    · rw [hperform]
      exact .single ⟨map, hgives.brings, hadd⟩
  | false =>
    cases step with
    | loadDirectory directory =>
      rw [perform, loadDirectory]
      cases directory.entries with
      | none => exact .refl
      | some entries =>
        exact takes_loadEntries loader directory.path (documentsOf entries) directory
    | add | load | loadText => cases hsingle

/-! ### What holds after any steps -/

/-- All maps of a loader can be used, and they are apart. -/
structure IsSound (loader : Loader) : Prop where
  usable : ∀ map ∈ loader.maps, ∀ descriptor ∈ map.descriptors, descriptor.check = .ok ()
  apart : Apart loader.maps

theorem isSound_empty : ({} : Loader).IsSound where
  usable := fun _ hmem => absurd hmem List.not_mem_nil
  apart := List.Pairwise.nil

/-- Taking a map in keeps a loader sound. -/
theorem IsSound.takes {loader after : Loader} (h : loader.IsSound) (htakes : loader.Takes after) :
    after.IsSound := by
  obtain ⟨map, hadd⟩ := htakes
  obtain ⟨⟨hcheck, hapart⟩, rfl⟩ := add_eq_ok_iff.mp hadd
  refine ⟨?_, ?_⟩
  · exact List.forall_mem_append.mpr
      ⟨h.usable, List.forall_mem_singleton.mpr (DeviceMap.check_eq_ok_iff.mp hcheck)⟩
  · refine List.pairwise_append.mpr ⟨h.apart, List.pairwise_singleton _ _, ?_⟩
    intro other hother added hadded
    rw [List.mem_singleton.mp hadded]
    exact hapart other hother

theorem IsSound.of_takes {loader after : Loader} (h : loader.IsSound)
    (htakes : Relation.ReflTransGen Takes loader after) : after.IsSound := by
  induction htakes with
  | refl => exact h
  | tail _ htakes ih => exact ih.takes htakes

/-- **After any steps** all maps can be used, and they are apart. -/
theorem isSound_run {loader : Loader} (h : loader.IsSound) (steps : List Step) :
    (loader.run steps).IsSound := by
  induction steps generalizing loader with
  | nil => exact h
  | cons step steps ih =>
    have htakes : Relation.ReflTransGen Takes loader (loader.perform step).2 :=
      Relation.ReflTransGen.mono (fun _ _ => Step.Takes.takes) _ _ (loader.takes_perform step)
    exact ih (h.of_takes htakes)

/-- **Loading keeps the maps apart.** After any steps from the empty loader, the ranges of the maps
are in order, no two maps are for the same address, and all descriptors pass the check. A further
step about a single map puts that map behind the others, if it passes the check and is for no
address of theirs, and otherwise fails and changes nothing. The database that is made then holds the
same maps one behind the other, and finds for an address the one map that is for it, or else
nothing. -/
theorem run_keeps_maps_apart (steps : List Step) :
    let loader := ({} : Loader).run steps
    (∀ map ∈ loader.maps, map.range.low ≤ map.range.high ∧
      ∀ descriptor ∈ map.descriptors, descriptor.check = .ok ()) ∧
    (loader.maps.Pairwise fun first second => ∀ address,
      ¬ (first.range.contains address = true ∧ second.range.contains address = true)) ∧
    (∀ step, step.isSingle = true →
      ((∃ e, loader.perform step = (.error e, loader)) ∧
        ∀ map, step.Gives map → ¬ loader.Admits map) ∨
      ∃ map, step.Gives map ∧ loader.Admits map ∧
        loader.perform step = (.ok (), { maps := loader.maps ++ [map] })) ∧
    loader.finish.maps.Perm loader.maps ∧
    (loader.finish.maps.Pairwise fun first second => first.range.high < second.range.low) ∧
    ∀ address,
      (∀ map, loader.finish.mapAt address = .ok map ↔
        loader.maps.filter (fun map => map.range.contains address) = [map]) ∧
      (∀ e, loader.finish.mapAt address = .error e ↔
        e = .addressNotFound address ∧
          ∀ map ∈ loader.maps, map.range.contains address = false) := by
  intro loader
  have hsound : loader.IsSound := isSound_run isSound_empty steps
  refine ⟨fun map hmem => ⟨map.range.low_le_high, hsound.usable map hmem⟩, hsound.apart,
    fun step hsingle => ?_, loader.perm_finish, pairwise_finish hsound.apart,
    fun address => ⟨fun map => ?_, fun e => ?_⟩⟩
  · refine (loader.perform_of_isSingle hsingle).imp ?_ ?_
    · rintro ⟨e, hperform⟩
      refine ⟨⟨e, hperform⟩, fun map hgives hadmits => ?_⟩
      have hadd := add_eq_ok_iff.mpr ⟨hadmits, rfl⟩
      rw [perform_of_gives hgives hadd] at hperform
      cases hperform
    · rintro ⟨map, after, hgives, hadd, hperform⟩
      obtain ⟨hadmits, rfl⟩ := add_eq_ok_iff.mp hadd
      exact ⟨map, hgives, hadmits, hperform⟩
  · rw [Database.mapAt_eq_ok_iff (apart_finish hsound.apart), filter_finish hsound.apart]
  · rw [Database.mapAt_eq_error_iff]
    simp only [loader.perm_finish.mem_iff]

end Loader

end Modbus
