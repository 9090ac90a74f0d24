import Modbus.Proofs.Map.Registers
import Modbus.Proofs.Map.Usable

/-!
# Registers under their own addresses

A register stands in the table of its map under some address, and it has an address of its own, that
of its first word. A map is keyed (`DeviceMap.IsKeyed`) if these are the same for all of its
registers. Adding a register to a map keeps it keyed, whether that succeeds or not, and so does
putting one in by hand, as long as it comes under its own address (`DeviceMap.IsKeyed.fillAll`).

A loader does not look at the addresses that the registers of a map are under: it admits a map if it
admits any other for the same devices with the same registers (`Loader.admits_iff_of_perm`). So it
is up to those who hand a map over whether its registers are found under their own addresses. All
other maps in a database come from documents (`Loader.mem_run`), and these are keyed.

`Loader.registers_under_own_addresses` says both, and what follows for the histories of a map.
-/

namespace Modbus

theorem History.address_of_ofDescriptor {descriptor : Descriptor} {history : History}
    (h : ofDescriptor descriptor = .ok history) : history.address = descriptor.start := by
  rw [ofDescriptor] at h
  split at h
  · cases h
    rfl
  · cases h

namespace DeviceMap

variable {map : DeviceMap}

/-- Every register is under its own address. -/
def IsKeyed (map : DeviceMap) : Prop :=
  ∀ entry ∈ map.registers.entries, entry.1 = entry.2.start

/-- In a keyed map, and in no other, what is found under an address is a register that begins
there. -/
theorem isKeyed_iff_register :
    map.IsKeyed ↔ ∀ (address : UInt16) (descriptor : Descriptor),
      map.register address = .ok descriptor → descriptor.start = address := by
  rw [IsKeyed, Prod.forall]
  refine forall₂_congr fun address descriptor => ?_
  rw [register_eq_ok_iff_find?, Table.find?_eq_some_iff, eq_comm]

/-- **A keyed map** is made of the registers that it lists. -/
theorem IsKeyed.isMadeOf (h : map.IsKeyed) : map.IsMadeOf map.descriptors := by
  have hkeys : map.descriptors.map Descriptor.start = map.registers.keys := by
    rw [descriptors, Table.values, List.map_map, Table.keys]
    exact List.map_congr_left fun entry hmem => (h entry hmem).symm
  refine isMadeOf_of_find? ?_ fun address descriptor => ?_
  · rw [hkeys, Table.keys]
    refine List.pairwise_map.mpr (map.registers.ascending.imp fun hlt heq => ?_)
    rw [heq] at hlt
    exact Nat.lt_irrefl _ hlt
  · rw [Table.find?_eq_some_iff]
    constructor
    · intro hmem
      exact ⟨List.mem_map_of_mem (f := Prod.snd) hmem, (h _ hmem).symm⟩
    · rintro ⟨hmem, rfl⟩
      obtain ⟨entry, hentry, rfl⟩ := List.mem_map.mp hmem
      rw [← h entry hentry]
      exact hentry

theorem isKeyed_empty (hempty : map.registers = {}) : map.IsKeyed := by
  intro entry hmem
  rw [hempty] at hmem
  exact absurd hmem List.not_mem_nil

/-! ### Filling a map -/

/-- A change of the registers of a map. -/
inductive Filling where
  /-- A register is added. -/
  | insert (descriptor : Descriptor)
  /-- A register is put in by hand. -/
  | set (address : UInt16) (descriptor : Descriptor)

/-- The map after a change: the old one if a register cannot be added. -/
def fill (map : DeviceMap) : Filling → DeviceMap
  | .insert descriptor => (map.attempt descriptor).2
  | .set address descriptor => map.setRegister address descriptor

/-- The map after a list of changes. -/
def fillAll (map : DeviceMap) (fillings : List Filling) : DeviceMap :=
  fillings.foldl fill map

/-- What is put in by hand comes under its own address. -/
def Filling.IsProper : Filling → Prop
  | .insert _ => True
  | .set address descriptor => address = descriptor.start

/-- **One change** keeps a map keyed. -/
theorem IsKeyed.fill (h : map.IsKeyed) {filling : Filling} (hproper : filling.IsProper) :
    (map.fill filling).IsKeyed := by
  cases filling with
  | insert descriptor => exact (h.isMadeOf.attempt descriptor).keyed
  | set address descriptor =>
    obtain rfl : address = descriptor.start := hproper
    intro entry hmem
    rcases Table.mem_insertEntry hmem with rfl | hmem
    · rfl
    · exact h entry hmem

/-- **Any changes** keep a map keyed. -/
theorem IsKeyed.fillAll (h : map.IsKeyed) {fillings : List Filling}
    (hproper : ∀ filling ∈ fillings, filling.IsProper) : (map.fillAll fillings).IsKeyed := by
  induction fillings generalizing map with
  | nil => exact h
  | cons filling fillings ih =>
    obtain ⟨hfirst, hrest⟩ := List.forall_mem_cons.mp hproper
    exact ih (h.fill hfirst) hrest

/-! ### Histories -/

/-- The histories of a map whose registers can be used are shown under the addresses of these. -/
theorem exists_histories_addresses
    (h : ∀ descriptor ∈ map.descriptors, descriptor.check = .ok ()) :
    ∃ histories, map.histories = .ok histories ∧
      histories.map History.address = map.descriptors.map Descriptor.start := by
  obtain ⟨histories, hhistories, hall⟩ := exists_histories h
  have hsame : List.Forall₂ (fun (entry : UInt16 × Descriptor) history =>
      history.address = entry.2.start) map.registers.entries histories :=
    hall.imp fun entry history hhistory => History.address_of_ofDescriptor hhistory.1
  refine ⟨histories, hhistories, ?_⟩
  rw [descriptors, Table.values, List.map_map, ← List.forall₂_eq_eq_eq, List.forall₂_map_left_iff,
    List.forall₂_map_right_iff]
  exact hsame.flip

/-- No two histories of a keyed map are shown under the same address. -/
theorem IsKeyed.pairwise_histories (h : map.IsKeyed) {histories : List History}
    (hsame : histories.map History.address = map.descriptors.map Descriptor.start) :
    histories.Pairwise fun first second => first.address < second.address := by
  rw [← List.pairwise_map (R := (· < ·)), hsame]
  exact List.pairwise_map.mpr h.isMadeOf.ascending

/-! ### Maps of documents -/

theorem IsDocumented.isKeyed (h : map.IsDocumented) : map.IsKeyed := by
  obtain ⟨config, hmap⟩ := h
  exact (isMadeOf_of_ofConfig hmap).1.keyed

end DeviceMap

namespace Loader

variable {loader : Loader} {map other : DeviceMap} {step : Step}

/-! ### Where the maps of a loader come from -/

/-- **A step** leaves the maps that were there and maps that came with it. -/
theorem mem_of_takes {after : Loader} (htakes : Relation.ReflTransGen step.Takes loader after)
    (hmem : map ∈ after.maps) : map ∈ loader.maps ∨ step.Brings map := by
  induction htakes with
  | refl => exact .inl hmem
  | tail _ htakes ih =>
    obtain ⟨brought, hbrings, hadd⟩ := htakes
    obtain ⟨-, rfl⟩ := add_eq_ok_iff.mp hadd
    rcases List.mem_append.mp hmem with hthere | hnew
    · exact ih hthere
    · obtain rfl := List.mem_singleton.mp hnew
      exact .inr hbrings

/-- **Any steps** leave the maps that were there and maps that came with one of them. -/
theorem mem_run {steps : List Step} (hmem : map ∈ (loader.run steps).maps) :
    map ∈ loader.maps ∨ ∃ step ∈ steps, step.Brings map := by
  induction steps generalizing loader with
  | nil => exact .inl hmem
  | cons step steps ih =>
    rw [List.exists_mem_cons_iff, ← or_assoc]
    rcases ih hmem with hthere | hbrought
    · exact .inl (mem_of_takes (loader.takes_perform step) hthere)
    · exact .inr hbrought

/-- A map that does not come as it is comes as that of a document, and is keyed. -/
theorem Step.Brings.eq_add_or_isKeyed (h : step.Brings map) : step = .add map ∨ map.IsKeyed := by
  cases step with
  | add given =>
    obtain rfl : map = given := h
    exact .inl rfl
  | load | loadText | loadDirectory => exact .inr (DeviceMap.IsDocumented.isKeyed h)

/-! ### What a loader looks at -/

/-- **What a loader looks at** is which registers a map has, not which addresses they are under. -/
theorem admits_iff_of_perm (hrange : map.range = other.range)
    (hperm : map.descriptors.Perm other.descriptors) : loader.Admits map ↔ loader.Admits other := by
  rw [Admits, Admits, DeviceMap.check_eq_ok_iff, DeviceMap.check_eq_ok_iff, hrange]
  simp only [hperm.mem_iff]

theorem exists_add_iff_admits : (∃ after, loader.add map = .ok after) ↔ loader.Admits map := by
  simp only [add_eq_ok_iff, exists_and_left, exists_eq, and_true]

/-- The database of a loader finds its maps under their addresses, and nothing else. -/
theorem IsSound.mapAt_finish_eq_ok_iff (h : loader.IsSound) {address : UInt8} :
    loader.finish.mapAt address = .ok map ↔
      map ∈ loader.maps ∧ map.range.contains address = true := by
  rw [Database.mapAt_eq_ok_iff_mem (apart_finish h.apart), loader.perm_finish.mem_iff]

open DeviceMap (Filling)

/-- **Registers are found under their own addresses**, after any steps, exactly if those maps of the
database are keyed that were handed over. The histories of a map are shown under the addresses of
its registers; if it is keyed, no two under the same. A new map that is filled is keyed if what is
put in by hand comes under its own address. The loader does not see to that: which addresses the
registers of a map are under has no say in whether it is taken in. -/
theorem registers_under_own_addresses (steps : List Step) :
    let database := (({} : Loader).run steps).finish
    ((∀ address map, database.mapAt address = .ok map →
        ∀ register descriptor, map.register register = .ok descriptor →
          descriptor.start = register) ↔
      ∀ map ∈ database.maps, .add map ∈ steps → map.IsKeyed) ∧
    (∀ map ∈ database.maps, ∃ histories, map.histories = .ok histories ∧
      histories.map History.address = map.descriptors.map Descriptor.start ∧
      (map.IsKeyed →
        histories.Pairwise fun first second => first.address < second.address)) ∧
    (∀ (map : DeviceMap) (fillings : List Filling), map.registers = {} →
      (∀ filling ∈ fillings, filling.IsProper) → (map.fillAll fillings).IsKeyed) ∧
    ∀ (loader : Loader) (map other : DeviceMap), map.range = other.range →
      map.descriptors.Perm other.descriptors →
        ((∃ after, loader.add map = .ok after) ↔ ∃ after, loader.add other = .ok after) := by
  intro database
  have hsound : (({} : Loader).run steps).IsSound := isSound_run isSound_empty steps
  have hmaps : ∀ map, map ∈ database.maps ↔ map ∈ (({} : Loader).run steps).maps :=
    fun map => (perm_finish _).mem_iff
  refine ⟨⟨fun hfound map hmem _ => ?_, fun hkeyed address map hmap => ?_⟩,
    fun map hmem => ?_, fun map fillings hempty => ?_, fun loader map other hrange hperm => ?_⟩
  · -- the map is found under the lowest of its device addresses
    have hlow : database.mapAt map.range.low = .ok map :=
      hsound.mapAt_finish_eq_ok_iff.mpr ⟨(hmaps map).mp hmem, map.range.contains_low⟩
    exact DeviceMap.isKeyed_iff_register.mpr (hfound map.range.low map hlow)
  · obtain ⟨hmem, -⟩ := hsound.mapAt_finish_eq_ok_iff.mp hmap
    refine DeviceMap.isKeyed_iff_register.mp ?_
    obtain ⟨step, hstep, hbrings⟩ := (mem_run hmem).resolve_left List.not_mem_nil
    rcases hbrings.eq_add_or_isKeyed with rfl | hmapKeyed
    · exact hkeyed map ((hmaps map).mpr hmem) hstep
    · exact hmapKeyed
  · obtain ⟨histories, hhistories, hsame⟩ :=
      DeviceMap.exists_histories_addresses (hsound.usable map ((hmaps map).mp hmem))
    exact ⟨histories, hhistories, hsame, fun hkeyed => hkeyed.pairwise_histories hsame⟩
  · exact (DeviceMap.isKeyed_empty hempty).fillAll
  · rw [exists_add_iff_admits, exists_add_iff_admits, admits_iff_of_perm hrange hperm]

/-- A map that was filled in both ways, with every register under its own address, and the document
of another one. -/
theorem registers_under_own_addresses_two :
    let temp : Descriptor := { start := 2, length := 1, name := "temp" }
    let volts : Descriptor := { start := 4, length := 2, name := "volts" }
    let empty : DeviceMap := { range := .single 0x30, name := "sensor", probe := 0 }
    let sensor := empty.fillAll [.insert temp, .set 4 volts]
    let fan : Json := .array [.text "fan", .array [.nat 2, .nat 3], .nat 9, .nat 300, .null,
      .array [], .array [.array [.nat 7, .nat 1, .text "rpm"]]]
    let steps : List Step := [.add sensor, .load fan]
    let database := (({} : Loader).run steps).finish
    database.maps.length = 2 ∧ database.mapAt 0x30 = .ok sensor ∧
      (∀ address map, database.mapAt address = .ok map →
        ∀ register descriptor, map.register register = .ok descriptor →
          descriptor.start = register) ∧
      ∃ histories, sensor.histories = .ok histories ∧
        histories.map History.address = [2, 4] ∧
        histories.Pairwise fun first second => first.address < second.address := by
  intro temp volts empty sensor fan steps database
  obtain ⟨howner, hhistories, hfill, -⟩ := registers_under_own_addresses steps
  have hproper : ∀ filling ∈ [Filling.insert temp, .set 4 volts], filling.IsProper := by
    simp [Filling.IsProper, volts]
  have hkeyed : sensor.IsKeyed := hfill empty _ rfl hproper
  have hlength : database.maps.length = 2 := (perm_finish _).length_eq.trans rfl
  have hfound : database.mapAt 0x30 = .ok sensor :=
    (isSound_run isSound_empty steps).mapAt_finish_eq_ok_iff.mpr ⟨List.mem_cons_self, rfl⟩
  have hadded : ∀ map ∈ database.maps, Step.add map ∈ steps → map.IsKeyed := by
    intro map _ hadd
    rcases List.mem_cons.mp hadd with heq | hadd
    · cases heq
      exact hkeyed
    · cases List.mem_singleton.mp hadd
  obtain ⟨histories, hok, hsame, hapart⟩ :=
    hhistories sensor ((perm_finish _).mem_iff.mpr List.mem_cons_self)
  exact ⟨hlength, hfound, howner.mpr hadded, histories, hok, hsame, hapart hkeyed⟩

/-- **A register under a foreign address** is taken in with its map and found there. It begins
elsewhere, where another history of that map is shown. -/
theorem misplaced_register_is_taken_in :
    let temp : Descriptor := { start := 2, length := 1, name := "temp" }
    let empty : DeviceMap := { range := .single 0x30, name := "sensor", probe := 0 }
    let sensor := empty.fillAll [.insert temp, .set 3 temp]
    let database := (({} : Loader).run [.add sensor]).finish
    (perform {} (.add sensor)).1 = .ok () ∧ database.mapAt 0x30 = .ok sensor ∧
      sensor.register 3 = .ok temp ∧ temp.start ≠ 3 ∧
      ∃ first second, sensor.histories = .ok [first, second] ∧
        first.address = 2 ∧ second.address = 2 := by
  intro temp empty sensor database
  have hfound : database.mapAt 0x30 = .ok sensor :=
    (isSound_run isSound_empty _).mapAt_finish_eq_ok_iff.mpr ⟨List.mem_cons_self, rfl⟩
  exact ⟨rfl, hfound, rfl, by decide, _, _, rfl, rfl, rfl⟩

end Loader

end Modbus
