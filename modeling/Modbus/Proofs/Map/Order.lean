import Modbus.Proofs.Map.Loading

/-!
# The order in which maps come

Maps that are taken in one after the other (`Loader.addAll`) are all taken in exactly if each of
them passes the check and no two are for the same address (`Loader.addAll_eq_ok_iff`). Neither
depends on the order in which they come. The database that is made of them does not either: maps
that stand one behind the other can do so in one way only (`Loader.finish_eq_of_perm`).
-/

namespace Modbus

/-- Maps that are apart are apart in any order. -/
theorem Apart.perm {maps maps' : List DeviceMap} (hperm : maps.Perm maps') (h : Apart maps) :
    Apart maps' :=
  (hperm.pairwise_iff AddressRange.Disjoint.symm).mp h

namespace Loader

/-- Take maps in, up to the first that is refused. -/
def addAll (loader : Loader) (maps : List DeviceMap) : Except ConfigError Loader :=
  maps.foldlM add loader

theorem addAll_cons (loader : Loader) (map : DeviceMap) (maps : List DeviceMap) :
    loader.addAll (map :: maps) = loader.add map >>= fun after => after.addAll maps := rfl

/-- One map is behind the others: it admits what they admit, as long as it is apart from that. -/
theorem admits_append_iff {loader : Loader} {map other : DeviceMap} :
    ({ maps := loader.maps ++ [map] } : Loader).Admits other ↔
      loader.Admits other ∧ map.range.Disjoint other.range := by
  rw [Admits, Admits, List.forall_mem_append, List.forall_mem_singleton, and_assoc]

/-- **Maps are all taken in** if the loader admits each of them and they are apart. They then stand
behind the others in the order in which they came. -/
theorem addAll_eq_ok_iff {loader after : Loader} {maps : List DeviceMap} :
    loader.addAll maps = .ok after ↔
      (∀ map ∈ maps, loader.Admits map) ∧ Apart maps ∧
        after = { maps := loader.maps ++ maps } := by
  induction maps generalizing loader with
  | nil =>
    have hempty : loader.addAll [] = .ok loader := rfl
    rw [hempty, List.append_nil, Except.ok.injEq]
    constructor
    · rintro rfl
      exact ⟨fun _ hmem => absurd hmem List.not_mem_nil, List.Pairwise.nil, rfl⟩
    · rintro ⟨-, -, rfl⟩
      rfl
  | cons map maps ih =>
    rw [addAll_cons, Apart, List.pairwise_cons, List.forall_mem_cons]
    cases hadd : loader.add map with
    | error e =>
      refine iff_of_false (by rintro ⟨⟩) ?_
      rintro ⟨⟨hadmits, -⟩, -⟩
      rw [add_eq_ok_iff.mpr ⟨hadmits, rfl⟩] at hadd
      cases hadd
    | ok next =>
      obtain ⟨hadmits, rfl⟩ := add_eq_ok_iff.mp hadd
      have hnext : ({ maps := loader.maps ++ [map] } : Loader).addAll maps = .ok after ↔ _ := ih
      simp only [admits_append_iff, List.append_assoc, List.singleton_append] at hnext
      refine hnext.trans ?_
      constructor
      · rintro ⟨hothers, hapart, rfl⟩
        exact ⟨⟨hadmits, fun other hmem => (hothers other hmem).1⟩,
          ⟨fun other hmem => (hothers other hmem).2, hapart⟩, rfl⟩
      · rintro ⟨⟨-, hothers⟩, ⟨hdisjoint, hapart⟩, rfl⟩
        exact ⟨fun other hmem => ⟨hothers other hmem, hdisjoint other hmem⟩, hapart, rfl⟩

/-- The empty loader takes all maps in that pass the check and are apart. -/
theorem exists_addAll_empty_iff {maps : List DeviceMap} :
    (∃ loader, addAll {} maps = .ok loader) ↔
      (∀ map ∈ maps, map.check = .ok ()) ∧ Apart maps := by
  have hadmits : ∀ map : DeviceMap, ({} : Loader).Admits map ↔ map.check = .ok () :=
    fun map => and_iff_left fun other hmem => absurd hmem List.not_mem_nil
  constructor
  · rintro ⟨loader, hloader⟩
    obtain ⟨hall, hapart, -⟩ := addAll_eq_ok_iff.mp hloader
    exact ⟨fun map hmem => (hadmits map).mp (hall map hmem), hapart⟩
  · rintro ⟨hchecks, hapart⟩
    exact ⟨_, addAll_eq_ok_iff.mpr
      ⟨fun map hmem => (hadmits map).mpr (hchecks map hmem), hapart, rfl⟩⟩

/-- **Maps stand in a database** in one order only, whatever the order in which they came. -/
theorem finish_eq_of_perm {loader loader' : Loader} (hperm : loader.maps.Perm loader'.maps)
    (hapart : Apart loader.maps) : loader.finish = loader'.finish := by
  have hmaps : loader.finish.maps.Perm loader'.finish.maps :=
    loader.perm_finish.trans (hperm.trans loader'.perm_finish.symm)
  have hbehind := pairwise_finish hapart
  have hbehind' := pairwise_finish (hapart.perm hperm)
  -- two maps that stand behind each other would both have to end before they begin
  have hantisymm : ∀ first second : DeviceMap, first.range.high < second.range.low →
      second.range.high < first.range.low → first = second := by
    intro first second hlt hlt'
    have hfirst := UInt8.le_iff_toNat_le.mp first.range.low_le_high
    have hsecond := UInt8.le_iff_toNat_le.mp second.range.low_le_high
    rw [UInt8.lt_iff_toNat_lt] at hlt hlt'
    omega
  have hequal : loader.finish.maps = loader'.finish.maps :=
    hmaps.eq_of_pairwise (fun first second _ _ => hantisymm first second) hbehind hbehind'
  exact congrArg Database.mk hequal

/-- **The order in which maps come** does not matter. The empty loader takes all of them in if each
passes the check and they are apart, and then in any other order too. The database that is made of
them is the same, and so are what it finds for an address and how it is shown. -/
theorem addAll_order_irrelevant {maps maps' : List DeviceMap} (hperm : maps.Perm maps') :
    ((∃ loader, addAll {} maps = .ok loader) ↔
      (∀ map ∈ maps, map.check = .ok ()) ∧ Apart maps) ∧
    ((∃ loader, addAll {} maps = .ok loader) ↔ ∃ loader, addAll {} maps' = .ok loader) ∧
    ∀ loader loader', addAll {} maps = .ok loader → addAll {} maps' = .ok loader' →
      loader.finish.maps = loader'.finish.maps ∧
        (∀ address, loader.finish.mapAt address = loader'.finish.mapAt address) ∧
          loader.finish.text = loader'.finish.text := by
  have hcondition : ((∀ map ∈ maps, map.check = .ok ()) ∧ Apart maps) ↔
      (∀ map ∈ maps', map.check = .ok ()) ∧ Apart maps' := by
    refine and_congr ?_ ⟨Apart.perm hperm, Apart.perm hperm.symm⟩
    exact forall_congr' fun map => imp_congr_left hperm.mem_iff
  refine ⟨exists_addAll_empty_iff, ?_, fun loader loader' hloader hloader' => ?_⟩
  · rw [exists_addAll_empty_iff, exists_addAll_empty_iff]
    exact hcondition
  · obtain ⟨-, hapart, rfl⟩ := addAll_eq_ok_iff.mp hloader
    obtain ⟨-, -, rfl⟩ := addAll_eq_ok_iff.mp hloader'
    have hsame : finish { maps := [] ++ maps } = finish { maps := [] ++ maps' } :=
      finish_eq_of_perm hperm hapart
    exact ⟨congrArg Database.maps hsame, fun address => congrArg (Database.mapAt · address) hsame,
      congrArg Database.text hsame⟩

/-- Two maps come in the order of their addresses, and the other way round. -/
theorem addAll_order_irrelevant_two :
    let pump : DeviceMap :=
      { range := .single 1, name := "pump", probe := 7
        registers := ({} : Table UInt16 Descriptor).insert 7
          { start := 7, length := 2, name := "flow", format := .integer } }
    let fan : DeviceMap := { range := { low := 2, high := 5 }, name := "fan", probe := 9 }
    [pump, fan].Perm [fan, pump] ∧
      addAll {} [pump, fan] = .ok { maps := [pump, fan] } ∧
      addAll {} [fan, pump] = .ok { maps := [fan, pump] } ∧
      finish { maps := [pump, fan] } = finish { maps := [fan, pump] } ∧
      ∀ address, (finish { maps := [pump, fan] }).mapAt address =
        (finish { maps := [fan, pump] }).mapAt address := by
  intro pump fan
  have hperm : [pump, fan].Perm [fan, pump] := .swap fan pump []
  have hforth : addAll {} [pump, fan] = .ok { maps := [pump, fan] } := rfl
  have hback : addAll {} [fan, pump] = .ok { maps := [fan, pump] } := rfl
  obtain ⟨-, -, hsame⟩ := addAll_order_irrelevant hperm
  obtain ⟨hmaps, hfound, -⟩ := hsame _ _ hforth hback
  exact ⟨hperm, hforth, hback, congrArg Database.mk hmaps, hfound⟩

end Loader

end Modbus
