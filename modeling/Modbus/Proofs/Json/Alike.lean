import Mathlib.Data.List.Nodup
import Modbus.Json.Doc

/-!
# Documents that differ in the order of members

Two documents are alike if one becomes the other by exchanging neighbouring members of its objects
that have different keys, at any depth. What has been read as a whole keeps the members of an object
in the order of their keys, so it is alike to the text it was read from, unless an object had a key
twice (`Doc.alike_ofJson`): of several values of a key only the last is kept.
-/

namespace Modbus

mutual

/-- The documents are the same but for the order of members with different keys. -/
inductive Doc.Alike : Doc → Doc → Prop
  | null : Doc.Alike .null .null
  | bool (value : Bool) : Doc.Alike (.bool value) (.bool value)
  | number (value : Option Number) : Doc.Alike (.number value) (.number value)
  | text (value : Option String) : Doc.Alike (.text value) (.text value)
  | array {items items' : Items} (hitems : Items.Alike items items') :
    Doc.Alike (.array items) (.array items')
  | object {members members' : Members} (hmembers : Members.Alike members members') :
    Doc.Alike (.object members) (.object members')
  | broken : Doc.Alike .broken .broken

/-- The items are alike one by one. -/
inductive Items.Alike : Items → Items → Prop
  | closed : Items.Alike .closed .closed
  | broken : Items.Alike .broken .broken
  | cons {item item' : Doc} {items items' : Items} (hitem : Doc.Alike item item')
    (hitems : Items.Alike items items') : Items.Alike (.cons item items) (.cons item' items')

/-- The members are alike, in any order that leaves those of one key in their order. -/
inductive Members.Alike : Members → Members → Prop
  | closed : Members.Alike .closed .closed
  | broken : Members.Alike .broken .broken
  | cons (key : Option String) {value value' : Doc} {members members' : Members}
    (hvalue : Doc.Alike value value') (hmembers : Members.Alike members members') :
    Members.Alike (.cons key value members) (.cons key value' members')
  | swap {key other : Option String} (hne : key ≠ other) {value value' held held' : Doc}
    {members members' : Members} (hvalue : Doc.Alike value value') (hheld : Doc.Alike held held')
    (hmembers : Members.Alike members members') :
    Members.Alike (.cons key value (.cons other held members))
      (.cons other held' (.cons key value' members'))
  | trans {first second third : Members} (hfirst : Members.Alike first second)
    (hsecond : Members.Alike second third) : Members.Alike first third

end

mutual

theorem Doc.Alike.refl : ∀ doc : Doc, doc.Alike doc
  | .null => .null
  | .bool value => .bool value
  | .number value => .number value
  | .text value => .text value
  | .array items => .array (Items.Alike.refl items)
  | .object members => .object (Members.Alike.refl members)
  | .broken => .broken

theorem Items.Alike.refl : ∀ items : Items, items.Alike items
  | .closed => .closed
  | .broken => .broken
  | .cons item items => .cons (Doc.Alike.refl item) (Items.Alike.refl items)

theorem Members.Alike.refl : ∀ members : Members, members.Alike members
  | .closed => .closed
  | .broken => .broken
  | .cons key value members => .cons key (Doc.Alike.refl value) (Members.Alike.refl members)

end

mutual

/-- Whether the form of a document is right does not depend on the order of members. -/
theorem Doc.Alike.isWhole_eq : ∀ {doc doc' : Doc}, doc.Alike doc' → doc.isWhole = doc'.isWhole
  | _, _, .null => rfl
  | _, _, .bool _ => rfl
  | _, _, .number _ => rfl
  | _, _, .text _ => rfl
  | _, _, .array hitems => hitems.isWhole_eq
  | _, _, .object hmembers => hmembers.isWhole_eq
  | _, _, .broken => rfl

theorem Items.Alike.isWhole_eq :
    ∀ {items items' : Items}, items.Alike items' → items.isWhole = items'.isWhole
  | _, _, .closed => rfl
  | _, _, .broken => rfl
  | _, _, .cons hitem hitems => congrArg₂ and hitem.isWhole_eq hitems.isWhole_eq

theorem Members.Alike.isWhole_eq :
    ∀ {members members' : Members}, members.Alike members' → members.isWhole = members'.isWhole
  | _, _, .closed => rfl
  | _, _, .broken => rfl
  | _, _, .cons _ hvalue hmembers => congrArg₂ and hvalue.isWhole_eq hmembers.isWhole_eq
  | _, _, .swap _ hvalue hheld hmembers =>
    (congrArg₂ and hvalue.isWhole_eq (congrArg₂ and hheld.isWhole_eq hmembers.isWhole_eq)).trans
      (Bool.and_left_comm _ _ _)
  | _, _, .trans hfirst hsecond => hfirst.isWhole_eq.trans hsecond.isWhole_eq

end

/-! ### Members in the order of their keys -/

namespace Members

/-- The keys of members. -/
def keys : Members → List (Option String)
  | .cons key _ members => key :: members.keys
  | _ => []

/-- Members that have been read as a whole are alike in any order if no two have the same key. -/
theorem alike_of_perm {entries entries' : List (String × Json)} (hperm : entries.Perm entries')
    (hkeys : (entries.map Prod.fst).Nodup) : (ofJsons entries).Alike (ofJsons entries') := by
  induction hperm with
  | nil => exact .closed
  | cons entry _ ih =>
    exact .cons (some entry.1) (Doc.Alike.refl _) (ih (List.nodup_cons.mp hkeys).2)
  | swap first second entries =>
    have hne : second.1 ≠ first.1 := by
      rintro heq
      refine (List.nodup_cons.mp hkeys).1 ?_
      rw [heq]
      exact List.mem_cons_self
    exact .swap (fun heq => hne (Option.some.inj heq)) (Doc.Alike.refl _) (Doc.Alike.refl _)
      (Members.Alike.refl _)
  | trans hfirst _ ihfirst ihsecond =>
    exact (ihfirst hkeys).trans (ihsecond ((hfirst.map Prod.fst).nodup_iff.mp hkeys))

end Members

namespace Json

/-- A member with a new key is put somewhere among the others. -/
theorem perm_insert {key : String} {value : Json} {members : List (String × Json)}
    (hnew : key ∉ members.map Prod.fst) :
    (insert key value members).Perm ((key, value) :: members) := by
  induction members with
  | nil => exact .refl _
  | cons first members ih =>
    obtain ⟨other, held⟩ := first
    have hne : key ≠ other := List.ne_of_not_mem_cons hnew
    have hrest : key ∉ members.map Prod.fst := List.not_mem_of_not_mem_cons hnew
    rw [insert, if_neg hne]
    split
    · exact .refl _
    · exact ((ih hrest).cons _).trans (.swap _ _ _)

/-- Members with new and different keys are put somewhere among the others. -/
theorem perm_foldl_insert {before entries : List (String × Json)}
    (hkeys : ((before ++ entries).map Prod.fst).Nodup) :
    (entries.foldl (fun members entry => insert entry.1 entry.2 members) before).Perm
      (before ++ entries) := by
  induction entries generalizing before with
  | nil => rw [List.foldl_nil, List.append_nil]
  | cons entry entries ih =>
    have hmiddle : (before ++ entry :: entries).Perm (entry :: (before ++ entries)) :=
      List.perm_middle
    have hnew : entry.1 ∉ before.map Prod.fst := by
      have hnotMem := (List.nodup_cons.mp ((hmiddle.map Prod.fst).nodup_iff.mp hkeys)).1
      rw [List.map_append] at hnotMem
      exact fun hmem => hnotMem (List.mem_append_left _ hmem)
    have hinsert : (insert entry.1 entry.2 before ++ entries).Perm (before ++ entry :: entries) :=
      ((perm_insert hnew).append_right entries).trans hmiddle.symm
    exact (ih ((hinsert.map Prod.fst).nodup_iff.mpr hkeys)).trans hinsert

end Json

/-! ### Values that have been read as a whole -/

mutual

/-- No object has a key twice. -/
def Doc.keysDistinct : Doc → Bool
  | .array items => items.keysDistinct
  | .object members => decide members.keys.Nodup && members.keysDistinct
  | _ => true

/-- No object among items has a key twice. -/
def Items.keysDistinct : Items → Bool
  | .cons item items => item.keysDistinct && items.keysDistinct
  | _ => true

/-- No object among the values of members has a key twice. -/
def Members.keysDistinct : Members → Bool
  | .cons _ value members => value.keysDistinct && members.keysDistinct
  | _ => true

end

/-- Members with different keys are alike in the order in which they stand and in the order of their
keys. -/
theorem Members.alike_sorted {members : Members} {entries : List (String × Json)}
    (halike : members.Alike (.ofJsons entries))
    (hentries : members.keys = (entries.map Prod.fst).map some)
    (hkeys : members.keys.Nodup) :
    members.Alike (.ofJsons
      (entries.foldl (fun members entry => Json.insert entry.1 entry.2 members) [])) := by
  have hnodup : (entries.map Prod.fst).Nodup := by
    rw [hentries] at hkeys
    exact hkeys.of_map
  have hsorted := Json.perm_foldl_insert
    (show (([] ++ entries).map Prod.fst).Nodup from hnodup)
  exact halike.trans (alike_of_perm hsorted.symm hnodup)

mutual

/-- **A value that has been read as a whole** is alike to what it was read from, if no object has a
key twice. -/
theorem Doc.alike_ofJson : ∀ {doc : Doc} {depth : Nat} {json : Json},
    doc.jsonWithin? depth = some json → doc.keysDistinct = true → doc.Alike (.ofJson json)
  | .null, _, _, hjson, _ => by
    cases hjson
    exact .null
  | .bool value, _, _, hjson, _ => by
    cases hjson
    exact .bool value
  | .number value, _, _, hjson, _ => by
    obtain ⟨n, rfl, rfl⟩ := Option.map_eq_some_iff.mp hjson
    exact .number (some n)
  | .text value, _, _, hjson, _ => by
    obtain ⟨s, rfl, rfl⟩ := Option.map_eq_some_iff.mp hjson
    exact .text (some s)
  | .array items, _, _, hjson, hkeys => by
    rw [Doc.jsonWithin?] at hjson
    split at hjson
    · cases hjson
    obtain ⟨jsons, hjsons, hjson⟩ := Option.bind_eq_some_iff.mp hjson
    cases hjson
    exact .array (Items.alike_ofJsons hjsons hkeys)
  | .object members, _, _, hjson, hkeys => by
    rw [Doc.jsonWithin?] at hjson
    split at hjson
    · cases hjson
    obtain ⟨result, hresult, hjson⟩ := Option.bind_eq_some_iff.mp hjson
    cases hjson
    obtain ⟨hnodup, hmembers⟩ := Bool.and_eq_true_iff.mp hkeys
    obtain ⟨entries, halike, hentries, rfl⟩ := Members.exists_alike_ofJsons hresult hmembers
    exact .object (Members.alike_sorted halike hentries (of_decide_eq_true hnodup))

theorem Items.alike_ofJsons : ∀ {items : Items} {depth : Nat} {jsons : List Json},
    items.jsonsWithin? depth = some jsons → items.keysDistinct = true →
      items.Alike (.ofJsons jsons)
  | .closed, _, _, hjsons, _ => by
    cases hjsons
    exact .closed
  | .cons item items, _, _, hjsons, hkeys => by
    obtain ⟨json, hjson, hrest⟩ := Option.bind_eq_some_iff.mp hjsons
    obtain ⟨others, hothers, hcons⟩ := Option.bind_eq_some_iff.mp hrest
    cases hcons
    obtain ⟨hitem, hitems⟩ := Bool.and_eq_true_iff.mp hkeys
    exact .cons (Doc.alike_ofJson hjson hitem) (Items.alike_ofJsons hothers hitems)

/-- Members before they are put into the order of their keys. -/
theorem Members.exists_alike_ofJsons : ∀ {members : Members} {depth : Nat}
    {before result : List (String × Json)}, members.jsonsWithin? depth before = some result →
    members.keysDistinct = true →
      ∃ entries : List (String × Json), members.Alike (.ofJsons entries) ∧
        members.keys = (entries.map Prod.fst).map some ∧
          result = entries.foldl (fun members entry => Json.insert entry.1 entry.2 members) before
  | .closed, _, _, _, hresult, _ => by
    cases hresult
    exact ⟨[], .closed, rfl, rfl⟩
  | .cons key value members, _, _, _, hresult, hkeys => by
    obtain ⟨key, rfl, hrest⟩ := Option.bind_eq_some_iff.mp hresult
    obtain ⟨json, hjson, hmembers⟩ := Option.bind_eq_some_iff.mp hrest
    obtain ⟨hvalue, hothers⟩ := Bool.and_eq_true_iff.mp hkeys
    obtain ⟨entries, halike, hentries, hfold⟩ := Members.exists_alike_ofJsons hmembers hothers
    refine ⟨(key, json) :: entries, .cons (some key) (Doc.alike_ofJson hjson hvalue) halike, ?_,
      hfold⟩
    rw [Members.keys, hentries]
    rfl

end

end Modbus
