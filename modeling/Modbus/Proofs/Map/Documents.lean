import Modbus.Map.Loader
import Modbus.Proofs.Config.RoundTrip

/-!
# Maps from texts and from values

A map is taken in from a text as it is from the value of that text, as long as no object of the text
has a key twice (`Loader.loadText_agrees_with_load`). The order of members does not matter: texts
that differ in nothing else have the same effect.
-/

namespace Modbus

/-! ### Steps of a loader -/

namespace Loader

/-- Both steps succeed, with the same loader after them, or both fail and change nothing. -/
def SameEffect (loader : Loader) (step step' : Step) : Prop :=
  (∃ after, loader.perform step = (.ok (), after) ∧ loader.perform step' = (.ok (), after)) ∨
    ∃ e e', loader.perform step = (.error e, loader) ∧ loader.perform step' = (.error e', loader)

/-- What becomes of a loader depends on whether a document was read, and on the map if it was. -/
theorem addConfig_concur (loader : Loader) (source : String)
    {config config' : Except Fault MapConfig} (h : Concur Eq config config') :
    Concur Eq (loader.addConfig source config) (loader.addConfig source config') := by
  cases h with
  | ok hconfig =>
    rw [hconfig]
    exact .refl _
  | error fault fault' =>
    exact .error (ConfigError.document source fault) (ConfigError.document source fault')

/-- Outcomes that concur settle a loader in the same way. -/
theorem settle_concur (loader : Loader) {outcome outcome' : Except ConfigError Loader}
    (h : Concur Eq outcome outcome') :
    (∃ after, loader.settle outcome = (.ok (), after) ∧ loader.settle outcome' = (.ok (), after)) ∨
      ∃ e e', loader.settle outcome = (.error e, loader) ∧
        loader.settle outcome' = (.error e', loader) := by
  cases h with
  | @ok after _ hafter =>
    obtain rfl := hafter
    exact .inl ⟨after, rfl, rfl⟩
  | error e e' => exact .inr ⟨e, e', rfl, rfl⟩

/-- **A text and its value** have the same effect on every loader, if no object of the text has a
key twice. They hold the same map, if any, and then also what is wrong with the map is found alike.
The order of members does not matter: a text that differs from this one in nothing else has the same
effect. -/
theorem loadText_agrees_with_load {text : String} {json : Json}
    (hjson : Configurable.jsonOfText text = .ok json)
    (hkeys : (Document.ofText text).root.keysDistinct = true) (loader : Loader) :
    loader.SameEffect (.loadText text) (.load json) ∧
      (∀ config : MapConfig,
        Configurable.ofText text = .ok config ↔ Configurable.ofJson json = .ok config) ∧
      (∀ config : MapConfig,
        Configurable.ofText text = .ok config → loader.loadText text = loader.load json) ∧
      ∀ text' : String, (Document.ofText text').trailing = false →
        (Document.ofText text).root.Alike (Document.ofText text').root →
          loader.SameEffect (.loadText text) (.loadText text') := by
  have hread : Concur Eq (Configurable.ofText text : Except Fault MapConfig)
      (Configurable.ofJson json) := Configurable.ofText_concur_ofJson hjson hkeys
  refine ⟨settle_concur loader (loader.addConfig_concur documentName hread), hread.eq_ok_iff,
    fun config hconfig => ?_, fun text' htrailing' halike => ?_⟩
  · rw [loadText, load, hconfig, (hread.eq_ok_iff config).mp hconfig]
  · have htrailing := (Configurable.jsonOfText_eq_ok_iff.mp hjson).1
    have hread' : Concur Eq (Configurable.ofText text : Except Fault MapConfig)
        (Configurable.ofText text') :=
      Configurable.ofText_concur_ofText htrailing htrailing' halike
    exact settle_concur loader (loader.addConfig_concur documentName hread')

/-- A map written as an array. Its one register is an object with a member that is not known, and
the format of the register is an object again. -/
def fanText : String :=
  "[\"fan\",[2,3],9,300,null,[],[\x7b\"note\":1,\"name\":\"rpm\",\"length\":1,\"begin\":0," ++
    "\"format\":\x7b\"HEX\":null\x7d\x7d]]"

/-- The same map with the first two members of the register exchanged. -/
def fanTextReordered : String :=
  "[\"fan\",[2,3],9,300,null,[],[\x7b\"name\":\"rpm\",\"note\":1,\"length\":1,\"begin\":0," ++
    "\"format\":\x7b\"HEX\":null\x7d\x7d]]"

/-- The value of such a map with the members of its register. -/
def fanJson (members : List (String × Json)) : Json :=
  .array [.text "fan", .array [.nat 2, .nat 3], .nat 9, .nat 300, .null, .array [],
    .array [.object members]]

theorem plain_fanJson {members : List (String × Json)} (hkeys : (members.map Prod.fst).Nodup)
    (h : ∀ member ∈ members, member.2.Plain 1) : (fanJson members).Plain 4 := by
  have hrange : (Json.array [.nat 2, .nat 3]).Plain 3 :=
    .pair (Json.plain_nat (by decide)) (Json.plain_nat (by decide))
  have hregisters : (Json.array [.object members]).Plain 3 :=
    .array (List.forall_mem_singleton.mpr (.object hkeys h))
  refine .array ?_
  simp only [List.forall_mem_cons]
  exact ⟨.text "fan", hrange, Json.plain_nat (by decide), Json.plain_nat (by decide), .null,
    .array nofun, hregisters, nofun⟩

theorem loadText_agrees_with_load_fan :
    let json := fanJson [("begin", .nat 0), ("format", .object [("HEX", .null)]),
      ("length", .nat 1), ("name", .text "rpm"), ("note", .nat 1)]
    Configurable.jsonOfText fanText = .ok json ∧
      (Document.ofText fanText).root.keysDistinct = true ∧
      (Document.ofText fanText).root.Alike (Document.ofText fanTextReordered).root ∧
      (perform {} (.load json)).1 = .ok () ∧
      SameEffect {} (.loadText fanText) (.load json) ∧
      loadText {} fanText = load {} json ∧
      SameEffect {} (.loadText fanText) (.loadText fanTextReordered) := by
  intro json
  have hstart : (Json.nat 0).Plain 1 := Json.plain_nat (by decide)
  have hone : (Json.nat 1).Plain 1 := Json.plain_nat (by decide)
  have hformat : (Json.object [("HEX", .null)]).Plain 1 :=
    .object (by decide) (List.forall_mem_singleton.mpr .null)
  have hdoc : Document.ofText fanText =
      { root := .ofJson (fanJson [("note", .nat 1), ("name", .text "rpm"), ("length", .nat 1),
        ("begin", .nat 0), ("format", .object [("HEX", .null)])]) } := by
    rw [← Document.ofText_render (plain_fanJson (by decide) ?_)]
    · exact congrArg Document.ofText (by decide)
    · simp only [List.forall_mem_cons]
      exact ⟨hone, .text "rpm", hone, hstart, hformat, nofun⟩
  have hdoc' : Document.ofText fanTextReordered =
      { root := .ofJson (fanJson [("name", .text "rpm"), ("note", .nat 1), ("length", .nat 1),
        ("begin", .nat 0), ("format", .object [("HEX", .null)])]) } := by
    rw [← Document.ofText_render (plain_fanJson (by decide) ?_)]
    · exact congrArg Document.ofText (by decide)
    · simp only [List.forall_mem_cons]
      exact ⟨.text "rpm", hone, hone, hstart, hformat, nofun⟩
  have hjson : Configurable.jsonOfText fanText = .ok json := by
    rw [Configurable.jsonOfText, hdoc]
    rfl
  have hkeys : (Document.ofText fanText).root.keysDistinct = true := by
    rw [hdoc]
    decide
  have halike : (Document.ofText fanText).root.Alike (Document.ofText fanTextReordered).root := by
    rw [hdoc, hdoc']
    refine .array (.cons (.refl _) (.cons (.refl _) (.cons (.refl _) (.cons (.refl _)
      (.cons (.refl _) (.cons (.refl _) (.cons (.array (.cons ?_ .closed)) .closed)))))))
    exact .object (Members.alike_of_perm (.swap _ _ _) (by decide))
  have hloaded : (perform {} (.load json)).1 = .ok () := rfl
  obtain ⟨hload, hsame, hequal, horder⟩ := loadText_agrees_with_load hjson hkeys {}
  obtain ⟨config, hconfig⟩ : ∃ config : MapConfig, Configurable.ofJson json = .ok config :=
    ⟨_, rfl⟩
  exact ⟨hjson, hkeys, halike, hloaded, hload, hequal config ((hsame config).mpr hconfig),
    horder fanTextReordered (by rw [hdoc']) halike⟩

end Loader

end Modbus
