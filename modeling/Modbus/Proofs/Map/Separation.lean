import Mathlib.Data.List.Basic
import Modbus.Map.Loader

/-!
# Maps for different addresses

Two ranges are disjoint if no address lies in both, which is what the comparison of their ends tests
(`AddressRange.overlaps_eq_false_iff`). Maps whose ranges are disjoint in pairs stand in a database
one behind the other: each range ends below the next one (`Loader.pairwise_finish`). Every address
then has at most one map, and looking it up finds that one (`Database.mapAt_eq_ok_iff`) or says that
there is none (`Database.mapAt_eq_error_iff`).
-/

namespace Modbus

namespace AddressRange

/-- The ranges have no address in common. -/
def Disjoint (first second : AddressRange) : Prop :=
  ∀ address, ¬ (first.contains address = true ∧ second.contains address = true)

theorem Disjoint.symm {first second : AddressRange} (h : first.Disjoint second) :
    second.Disjoint first :=
  fun address hboth => h address hboth.symm

theorem contains_iff {range : AddressRange} {address : UInt8} :
    range.contains address = true ↔
      range.low.toNat ≤ address.toNat ∧ address.toNat ≤ range.high.toNat := by
  rw [contains, Bool.and_eq_true, decide_eq_true_eq, decide_eq_true_eq, UInt8.le_iff_toNat_le,
    UInt8.le_iff_toNat_le]

theorem contains_low (range : AddressRange) : range.contains range.low = true :=
  contains_iff.mpr ⟨Nat.le_refl _, UInt8.le_iff_toNat_le.mp range.low_le_high⟩

theorem overlaps_iff {first second : AddressRange} :
    first.overlaps second = true ↔
      first.low.toNat ≤ second.high.toNat ∧ second.low.toNat ≤ first.high.toNat := by
  rw [overlaps, Bool.and_eq_true, decide_eq_true_eq, decide_eq_true_eq, UInt8.le_iff_toNat_le,
    UInt8.le_iff_toNat_le]

/-- **Comparing ends** decides whether ranges are disjoint: of two that overlap, the greater low end
lies in both. -/
theorem overlaps_eq_false_iff {first second : AddressRange} :
    first.overlaps second = false ↔ first.Disjoint second := by
  rw [← Bool.not_eq_true, overlaps_iff]
  have hfirst := UInt8.le_iff_toNat_le.mp first.low_le_high
  have hsecond := UInt8.le_iff_toNat_le.mp second.low_le_high
  constructor
  · rintro hapart address ⟨hin, hin'⟩
    have hends := contains_iff.mp hin
    have hends' := contains_iff.mp hin'
    exact hapart ⟨by omega, by omega⟩
  · rintro hdisjoint ⟨hle, hle'⟩
    rcases Nat.le_total first.low.toNat second.low.toNat with hlow | hlow
    · exact hdisjoint second.low ⟨contains_iff.mpr ⟨hlow, hle'⟩, second.contains_low⟩
    · exact hdisjoint first.low ⟨first.contains_low, contains_iff.mpr ⟨hlow, hle⟩⟩

theorem before_iff {first second : AddressRange} :
    first.before second = true ↔
      first.low.toNat < second.low.toNat ∨
        (first.low.toNat = second.low.toNat ∧ first.high.toNat ≤ second.high.toNat) := by
  rw [before, order, Ordering.isLE_then_iff_or, Std.isLE_compare, Std.compare_eq_iff_eq,
    UInt8.le_iff_toNat_le, ← UInt8.toNat_inj]
  exact or_congr_left (compareOfLessAndEq_eq_lt.trans UInt8.lt_iff_toNat_lt)

theorem before_trans {first second third : AddressRange} (h : first.before second = true)
    (h' : second.before third = true) : first.before third = true := by
  rw [before_iff] at h h' ⊢
  omega

theorem before_total (first second : AddressRange) :
    (first.before second || second.before first) = true := by
  rw [Bool.or_eq_true, before_iff, before_iff]
  omega

/-- Of disjoint ranges, the one that comes first ends below the other. -/
theorem Disjoint.high_lt_low {first second : AddressRange} (h : first.Disjoint second)
    (hbefore : first.before second = true) : first.high < second.low := by
  have hapart := overlaps_eq_false_iff.mpr h
  rw [← Bool.not_eq_true, overlaps_iff] at hapart
  have hsecond := UInt8.le_iff_toNat_le.mp second.low_le_high
  rw [before_iff] at hbefore
  rw [UInt8.lt_iff_toNat_lt]
  omega

end AddressRange

/-- No two of the maps are for the same address. -/
def Apart (maps : List DeviceMap) : Prop :=
  maps.Pairwise fun first second => first.range.Disjoint second.range

/-- Maps that are apart and all for one address are at most one map. -/
theorem Apart.eq_head? {maps : List DeviceMap} (h : Apart maps) {address : UInt8}
    (hhere : ∀ map ∈ maps, map.range.contains address = true) : maps = maps.head?.toList := by
  match maps with
  | [] => rfl
  | [map] => rfl
  | first :: second :: rest =>
    have hdisjoint := (List.pairwise_cons.mp h).1 second List.mem_cons_self
    have hfirst := hhere first List.mem_cons_self
    have hsecond := hhere second (List.mem_cons_of_mem _ List.mem_cons_self)
    exact absurd ⟨hfirst, hsecond⟩ (hdisjoint address)

/-- Of maps that are apart, at most one is for an address. -/
theorem Apart.filter_contains {maps : List DeviceMap} (h : Apart maps) (address : UInt8) :
    maps.filter (fun map => map.range.contains address) =
      (maps.find? fun map => map.range.contains address).toList := by
  have hapart : Apart (maps.filter fun map => map.range.contains address) :=
    List.Pairwise.filter _ h
  rw [← List.head?_filter]
  exact hapart.eq_head? fun map hmem => (List.mem_filter.mp hmem).2

namespace Loader

theorem perm_finish (loader : Loader) : loader.finish.maps.Perm loader.maps :=
  List.mergeSort_perm _ _

theorem apart_finish {loader : Loader} (h : Apart loader.maps) : Apart loader.finish.maps :=
  (loader.perm_finish.pairwise_iff AddressRange.Disjoint.symm).mpr h

/-- **The maps of a database** stand one behind the other. -/
theorem pairwise_finish {loader : Loader} (h : Apart loader.maps) :
    loader.finish.maps.Pairwise fun first second => first.range.high < second.range.low := by
  have hsorted : loader.finish.maps.Pairwise fun first second =>
      first.range.before second.range = true := by
    refine List.pairwise_mergeSort ?_ ?_ loader.maps
    · intro first second third
      exact AddressRange.before_trans
    · intro first second
      exact AddressRange.before_total first.range second.range
  exact (apart_finish h).imp₂ (fun _ _ => AddressRange.Disjoint.high_lt_low) hsorted

/-- The maps of a database for an address are those of the loader. -/
theorem filter_finish {loader : Loader} (h : Apart loader.maps) (address : UInt8) :
    loader.finish.maps.filter (fun map => map.range.contains address) =
      loader.maps.filter fun map => map.range.contains address := by
  have hperm := loader.perm_finish.filter fun map => map.range.contains address
  rw [(apart_finish h).filter_contains, h.filter_contains] at hperm ⊢
  cases hfind : loader.maps.find? fun map => map.range.contains address with
  | none =>
    rw [hfind] at hperm
    exact hperm.eq_nil
  | some map =>
    rw [hfind] at hperm
    exact List.perm_singleton.mp hperm

end Loader

namespace Database

variable {database : Database} {address : UInt8}

/-- **Looking up** finds the one map that is for the address. -/
theorem mapAt_eq_ok_iff (h : Apart database.maps) {map : DeviceMap} :
    database.mapAt address = .ok map ↔
      database.maps.filter (fun map => map.range.contains address) = [map] := by
  rw [h.filter_contains, mapAt]
  cases database.maps.find? fun map => map.range.contains address with
  | none => exact iff_of_false (by rintro ⟨⟩) (by rintro ⟨⟩)
  | some found => rw [Option.toList_some, List.singleton_inj, Except.ok.injEq]

/-- A map is found under each of its addresses. -/
theorem mapAt_eq_ok_iff_mem (h : Apart database.maps) {map : DeviceMap} :
    database.mapAt address = .ok map ↔
      map ∈ database.maps ∧ map.range.contains address = true := by
  have hmem : map ∈ database.maps ∧ map.range.contains address = true ↔
      map ∈ (database.maps.find? fun map => map.range.contains address).toList := by
    rw [← h.filter_contains, List.mem_filter]
  rw [hmem, mapAt]
  cases database.maps.find? fun map => map.range.contains address with
  | none => exact iff_of_false nofun List.not_mem_nil
  | some found =>
    rw [Option.toList_some, List.mem_singleton, Except.ok.injEq]
    exact eq_comm

/-- Looking up fails exactly if no map is for the address. -/
theorem mapAt_eq_error_iff {e : LookupError} :
    database.mapAt address = .error e ↔
      e = .addressNotFound address ∧ ∀ map ∈ database.maps, map.range.contains address = false := by
  rw [mapAt]
  cases hfind : database.maps.find? fun map => map.range.contains address with
  | none =>
    have hnone := List.find?_eq_none.mp hfind
    rw [and_iff_left fun map hmem => Bool.eq_false_iff.mpr (hnone map hmem), Except.error.injEq]
    exact eq_comm
  | some found =>
    refine iff_of_false (by rintro ⟨⟩) ?_
    rintro ⟨-, hnone⟩
    have hfound := List.find?_some hfind
    rw [hnone found (List.mem_of_find?_eq_some hfind)] at hfound
    exact absurd hfound Bool.false_ne_true

end Database

end Modbus
