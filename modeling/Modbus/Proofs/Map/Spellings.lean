import Modbus.Map.Loader
import Modbus.Proofs.Config.Respelling
import Modbus.Proofs.Config.RoundTrip

/-!
# Other spellings of a map

A value of a configurable type is read from every spelling of its document
(`Configurable.keepsSpellings`). For a map there is one spelling more: the preferred speed counts as
the default one if it is left out, so it can be written out as that. This is another configuration,
but of the same map (`MapConfig.Respelled.exists_conform`).

`Loader.respellings_load_alike` puts this together: all spellings have the same effect on a loader.
-/

namespace Modbus

namespace Configurable

/-- A value of the type is read from every spelling of it, as a value and as a text. -/
structure KeepsSpellings (α : Type) [Configurable α] : Prop where
  ofJson : ∀ (json json' : Json) (a : α), ofJson json = .ok a →
    (shape α).Respelled (.ofJson json) (.ofJson json') → Configurable.ofJson json' = .ok a
  ofText : ∀ (text text' : String) (a : α), ofText text = .ok a →
    (Document.ofText text').trailing = false →
      (shape α).Respelled (Document.ofText text).root (Document.ofText text').root →
        Configurable.ofText text' = .ok a

variable {α : Type} [Configurable α]

theorem ofJson_eq_ok_iff {json : Json} {a : α} :
    ofJson json = .ok a ↔
      ∃ value, (shape α).conform .parsed (.ofJson json) = .ok value ∧ ofVal value = a := by
  rw [ofJson, bind_eq_ok_iff]
  constructor
  · rintro ⟨value, hvalue, ⟨⟩⟩
    exact ⟨value, hvalue, rfl⟩
  · rintro ⟨value, hvalue, rfl⟩
    exact ⟨value, hvalue, rfl⟩

theorem ofText_eq_ok_iff {text : String} {a : α} :
    ofText text = .ok a ↔
      (Document.ofText text).trailing = false ∧
        ∃ value, (shape α).conform .streamed (Document.ofText text).root = .ok value ∧
          ofVal value = a := by
  rw [ofText, bind_eq_ok_iff]
  constructor
  · rintro ⟨value, hvalue, hread⟩
    split at hread
    · cases hread
    · next htrailing =>
      exact ⟨Bool.not_eq_true _ ▸ htrailing, value, hvalue, Except.ok.inj hread⟩
  · rintro ⟨htrailing, value, hvalue, rfl⟩
    exact ⟨value, hvalue, if_neg (Bool.not_eq_true _ ▸ htrailing)⟩

variable (α) in
/-- **Every spelling** of a value is read as that value. -/
theorem keepsSpellings : KeepsSpellings α where
  ofJson json json' a hread h := by
    obtain ⟨value, hvalue, ha⟩ := ofJson_eq_ok_iff.mp hread
    exact ofJson_eq_ok_iff.mpr ⟨value, h.readsLike .parsed value hvalue, ha⟩
  ofText text text' a hread htrailing h := by
    obtain ⟨-, value, hvalue, ha⟩ := ofText_eq_ok_iff.mp hread
    exact ofText_eq_ok_iff.mpr ⟨htrailing, value, h.readsLike .streamed value hvalue, ha⟩

end Configurable

namespace MapConfig

/-- Two spellings of a map whose default speed is known. -/
inductive Respelled (baud : UInt32) : Doc → Doc → Prop
  | trans {doc doc' doc'' : Doc} (hfirst : Respelled baud doc doc')
      (hsecond : Respelled baud doc' doc'') : Respelled baud doc doc''
  /-- The parts are spelled in another way. -/
  | ofShape {doc doc' : Doc} (h : (Configurable.shape MapConfig).Respelled doc doc') :
      Respelled baud doc doc'
  /-- The default speed is written out as the preferred one. -/
  | preferred {members members' : Members} (hsame : members.SameBut "preferred_baudrate" members')
      (hnone : members.values "preferred_baudrate" = [])
      (hbaud : members'.values "preferred_baudrate" = [.ofJson (.nat baud.toNat)]) :
      Respelled baud (.object members) (.object members')

/-- A part stays, or a speed is written in the place of nothing. -/
def SpeedWritten (baud : UInt32) (shape : Shape) (part part' : Doc) : Prop :=
  part = part' ∨
    shape = .optional .uint32 ∧ part = .null ∧ part' = .ofJson (.nat baud.toNat)

/-- The configurations are of the same map, and have a default speed. -/
def SameMap (baud : UInt32) (config config' : MapConfig) : Prop :=
  config'.defaultBaud = baud ∧ DeviceMap.ofConfig config' = DeviceMap.ofConfig config

/-- A field keeps its part if it is not an optional speed. -/
theorem uncons_of_ne {source : Source} {baud : UInt32} {name : String} {shape : Shape}
    {default : Option Json} {fields : Fields} {parts parts' : List Doc} {value : shape.Val}
    {values : fields.Val}
    (hholds : (Fields.cons name shape default fields).Holds source parts (value, values))
    (hrelated : (Fields.cons name shape default fields).Related (SpeedWritten baud) parts parts')
    (hne : shape ≠ .optional .uint32) :
    ∃ part rest rest', parts = part :: rest ∧ parts' = part :: rest' ∧
      shape.conform source part = .ok value ∧ fields.Holds source rest values ∧
      fields.Related (SpeedWritten baud) rest rest' := by
  obtain ⟨part, rest, part', rest', rfl, rfl, hheld, hpart, hrest⟩ := hholds.uncons hrelated
  obtain rfl : part = part' := hpart.resolve_right fun hspeed => hne hspeed.1
  exact ⟨part, rest, rest', rfl, rfl, hheld, hrest⟩

/-- What is read of the parts with the speed written. -/
theorem exists_holds {source : Source} {baud : UInt32} {parts parts' : List Doc}
    {values : fields.Val} (hholds : fields.Holds source parts values)
    (hbaud : (ofFields values).defaultBaud = baud)
    (hrelated : fields.Related (SpeedWritten baud) parts parts') :
    ∃ values', fields.Holds source parts' values' ∧
      SameMap baud (ofFields values) (ofFields values') := by
  obtain ⟨name, range, probe, defaultBaud, preferredBaud, handlers, registers, ⟨⟩⟩ := values
  obtain rfl : defaultBaud = baud := hbaud
  obtain ⟨_, _, _, rfl, rfl, hname, hholds, hrelated⟩ := uncons_of_ne hholds hrelated nofun
  obtain ⟨_, _, _, rfl, rfl, hrange, hholds, hrelated⟩ := uncons_of_ne hholds hrelated nofun
  obtain ⟨_, _, _, rfl, rfl, hprobe, hholds, hrelated⟩ := uncons_of_ne hholds hrelated nofun
  obtain ⟨_, _, _, rfl, rfl, hdefault, hholds, hrelated⟩ := uncons_of_ne hholds hrelated nofun
  obtain ⟨_, _, _, _, rfl, rfl, hspeed, hwritten, hholds, hrelated⟩ := hholds.uncons hrelated
  obtain ⟨_, _, _, rfl, rfl, hhandlers, hholds, hrelated⟩ := uncons_of_ne hholds hrelated nofun
  obtain ⟨_, _, _, rfl, rfl, hregisters, hnone, hrelated⟩ := uncons_of_ne hholds hrelated nofun
  obtain rfl : _ = _ := hrelated
  obtain rfl | ⟨-, rfl, rfl⟩ := hwritten
  · exact ⟨_, ⟨hname, hrange, hprobe, hdefault, hspeed, hhandlers, hregisters, hnone⟩, rfl, rfl⟩
  · -- nothing was preferred, so the default speed counted
    obtain rfl : preferredBaud = none := (Except.ok.inj hspeed).symm
    have hpreferred : (Shape.optional .uint32).conform source (.ofJson (.nat defaultBaud.toNat)) =
        .ok (some defaultBaud) :=
      (Shape.optional .uint32).conform_toJson source rfl (some defaultBaud)
    exact ⟨(name, range, probe, defaultBaud, some defaultBaud, handlers, registers, ()),
      ⟨hname, hrange, hprobe, hdefault, hpreferred, hhandlers, hregisters, hnone⟩, rfl, rfl⟩

/-- **Every spelling** of a map is read as that map. -/
theorem Respelled.exists_conform {baud : UInt32} {doc doc' : Doc} (h : Respelled baud doc doc')
    (source : Source) {values : fields.Val}
    (hread : (Configurable.shape MapConfig).conform source doc = .ok values)
    (hbaud : (ofFields values).defaultBaud = baud) :
    ∃ values', (Configurable.shape MapConfig).conform source doc' = .ok values' ∧
      SameMap baud (ofFields values) (ofFields values') := by
  induction h generalizing values with
  | trans _ _ ih ih' =>
    obtain ⟨values', hread', hbaud', hmap'⟩ := ih hread hbaud
    obtain ⟨values'', hread'', hbaud'', hmap''⟩ := ih' hread' hbaud'
    exact ⟨values'', hread'', hbaud'', hmap''.trans hmap'⟩
  | ofShape h => exact ⟨values, h.readsLike source values hread, hbaud, rfl⟩
  | @preferred members members' hsame hnone hspeed =>
    obtain ⟨parts, hparts | _, hholds⟩ := Shape.conform_record_eq_ok_iff.mp hread
    have hfield : fields.field? "preferred_baudrate" = some (.optional .uint32, some .null) := rfl
    obtain ⟨parts', hparts', hrelated⟩ :=
      hparts.exists_related (R := SpeedWritten baud) (fun _ _ => .inl rfl) hsame
        (fun hunknown => nomatch hunknown.symm.trans hfield) (by
          intro shape default hfield' part hpart
          cases hfield.symm.trans hfield'
          rw [hnone, Fields.isPart_nil_iff] at hpart
          obtain ⟨_, ⟨⟩, rfl⟩ := hpart
          exact ⟨_, .inl hspeed, .inr ⟨rfl, rfl, rfl⟩⟩)
    obtain ⟨values', hholds', hsame'⟩ := exists_holds hholds hbaud hrelated
    exact ⟨values', Shape.conform_record_eq_ok_iff.mpr ⟨parts', .object hparts', hholds'⟩, hsame'⟩

end MapConfig

namespace Loader

/-- Of a configuration, its map is taken in. -/
theorem addConfig_of_sameMap (loader : Loader) (source : String) {config config' : MapConfig}
    (hmap : DeviceMap.ofConfig config' = DeviceMap.ofConfig config) :
    loader.addConfig source (.ok config') = loader.addConfig source (.ok config) := by
  show (DeviceMap.ofConfig config' >>= loader.add) = (DeviceMap.ofConfig config >>= loader.add)
  rw [hmap]

/-- **Other spellings load alike.** What is read of a document as a descriptor, a periodic action,
what such an action writes or a map is read of every other spelling of it, from a value as from a
text. The spellings of the document of a map, one with the preferred speed written out among them,
are all of the same map, and have the same effect on every loader. -/
theorem respellings_load_alike :
    (Configurable.KeepsSpellings Descriptor ∧ Configurable.KeepsSpellings Handler ∧
      Configurable.KeepsSpellings WriteAction ∧ Configurable.KeepsSpellings MapConfig) ∧
    (∀ (json json' : Json) (config : MapConfig), Configurable.ofJson json = .ok config →
      MapConfig.Respelled config.defaultBaud (.ofJson json) (.ofJson json') →
        (∃ config' : MapConfig, Configurable.ofJson json' = .ok config' ∧
          DeviceMap.ofConfig config' = DeviceMap.ofConfig config) ∧
        ∀ loader : Loader, loader.load json' = loader.load json) ∧
    ∀ (text text' : String) (config : MapConfig), Configurable.ofText text = .ok config →
      (Document.ofText text').trailing = false →
        MapConfig.Respelled config.defaultBaud (Document.ofText text).root
          (Document.ofText text').root →
          (∃ config' : MapConfig, Configurable.ofText text' = .ok config' ∧
            DeviceMap.ofConfig config' = DeviceMap.ofConfig config) ∧
          ∀ loader : Loader, loader.loadText text' = loader.loadText text := by
  refine ⟨⟨Configurable.keepsSpellings _, Configurable.keepsSpellings _,
    Configurable.keepsSpellings _, Configurable.keepsSpellings _⟩, ?_, ?_⟩
  · intro json json' config hread h
    obtain ⟨values, hvalues, rfl⟩ := Configurable.ofJson_eq_ok_iff.mp hread
    obtain ⟨values', hvalues', -, hmap⟩ := h.exists_conform .parsed hvalues rfl
    have hread' := Configurable.ofJson_eq_ok_iff.mpr ⟨values', hvalues', rfl⟩
    refine ⟨⟨_, hread', hmap⟩, fun loader => ?_⟩
    rw [load, load, hread, hread']
    exact loader.addConfig_of_sameMap documentName hmap
  · intro text text' config hread htrailing h
    obtain ⟨-, values, hvalues, rfl⟩ := Configurable.ofText_eq_ok_iff.mp hread
    obtain ⟨values', hvalues', -, hmap⟩ := h.exists_conform .streamed hvalues rfl
    have hread' := Configurable.ofText_eq_ok_iff.mpr ⟨htrailing, values', hvalues', rfl⟩
    refine ⟨⟨_, hread', hmap⟩, fun loader => ?_⟩
    rw [loadText, loadText, hread, hread']
    exact loader.addConfig_of_sameMap documentName hmap

/-- A register written with nothing that counts anyway. -/
def rpmBrief : Json :=
  .object [("begin", .nat 0), ("length", .nat 1), ("name", .text "rpm")]

/-- The register with a note that nobody reads and with the length of its history. -/
def rpmWordy : Json :=
  .object [("begin", .nat 0), ("note", .array [.null]), ("length", .nat 1), ("keep", .nat 1),
    ("name", .text "rpm")]

/-- A map of the register as an object. -/
def rpmMap (speeds : List (String × Json)) (register : Json) : Json :=
  .object ([("name", .text "fan"), ("address_range", .array [.nat 2, .nat 3]),
    ("probe_register", .nat 9)] ++ speeds ++ [("registers", .array [register])])

/-- The map written with nothing that counts anyway. -/
def rpmMapBrief : Json :=
  rpmMap [("default_baudrate", .nat 300)] rpmBrief

/-- The map as an array. -/
def rpmMapWordy : Json :=
  .array [.text "fan", .array [.nat 2, .nat 3], .nat 9, .nat 300, .nat 300, .array [],
    .array [rpmWordy]]

theorem respelled_rpm :
    (Configurable.shape Descriptor).Respelled (.ofJson rpmBrief) (.ofJson rpmWordy) := by
  have hnote : Descriptor.fields.field? "note" = none := rfl
  have hkeep : Descriptor.fields.field? "keep" = some (.uint16, some (.nat 1)) := rfl
  have hnoted : (Configurable.shape Descriptor).Respelled (.ofJson rpmBrief) (.ofJson (.object
      [("begin", .nat 0), ("note", .array [.null]), ("length", .nat 1), ("name", .text "rpm")])) :=
    .unknown hnote rfl (by decide)
  exact hnoted.trans (.written hkeep rfl rfl rfl)

theorem respelled_rpmMap : MapConfig.Respelled 300 (.ofJson rpmMapBrief) (.ofJson rpmMapWordy) := by
  have hregisters : MapConfig.fields.field? "registers" =
      some (.list (Configurable.shape Descriptor), none) := rfl
  have hregister : (Configurable.shape MapConfig).Respelled (.ofJson rpmMapBrief)
      (.ofJson (rpmMap [("default_baudrate", .nat 300)] rpmWordy)) :=
    .member hregisters rfl rfl rfl (.item [] [] respelled_rpm)
  have hpreferred : MapConfig.Respelled 300
      (.ofJson (rpmMap [("default_baudrate", .nat 300)] rpmWordy))
      (.ofJson (rpmMap [("default_baudrate", .nat 300), ("preferred_baudrate", .nat 300)]
        rpmWordy)) := .preferred rfl rfl rfl
  have hparts : MapConfig.fields.Finds
      (.ofJsons [("name", .text "fan"), ("address_range", .array [.nat 2, .nat 3]),
        ("probe_register", .nat 9), ("default_baudrate", .nat 300),
        ("preferred_baudrate", .nat 300), ("registers", .array [rpmWordy])])
      ([.text "fan", .array [.nat 2, .nat 3], .nat 9, .nat 300, .nat 300, .array [],
        .array [rpmWordy]].map Doc.ofJson) :=
    .cons (.inl rfl) <| .cons (.inl rfl) <| .cons (.inl rfl) <| .cons (.inl rfl) <|
      .cons (.inl rfl) <| .cons (.inr ⟨rfl, _, rfl, rfl⟩) <| .cons (.inl rfl) <| .nil rfl
  have harranged : MapConfig.Respelled 300 _ (.ofJson rpmMapWordy) := .ofShape (.arranged hparts)
  exact (MapConfig.Respelled.ofShape hregister).trans (hpreferred.trans harranged)

/-- Both texts are read as they are written. -/
theorem plain_rpmMaps : rpmMapBrief.Plain 4 ∧ rpmMapWordy.Plain 4 := by
  have hnat {depth n : ℕ} (h : n < Numeral.wordLimit) : (Json.nat n).Plain depth :=
    Json.plain_nat h
  have hrange : (Json.array [.nat 2, .nat 3]).Plain 3 :=
    .pair (hnat (by decide)) (hnat (by decide))
  have hbrief : (Json.array [rpmBrief]).Plain 3 := by
    refine .array (List.forall_mem_singleton.mpr (.object (by decide) ?_))
    simp only [List.forall_mem_cons]
    exact ⟨hnat (by decide), hnat (by decide), .text "rpm", nofun⟩
  have hwordy : (Json.array [rpmWordy]).Plain 3 := by
    refine .array (List.forall_mem_singleton.mpr (.object (by decide) ?_))
    simp only [List.forall_mem_cons]
    exact ⟨hnat (by decide), .array (List.forall_mem_singleton.mpr .null), hnat (by decide),
      hnat (by decide), .text "rpm", nofun⟩
  constructor
  · refine .object (by decide) ?_
    simp only [List.cons_append, List.nil_append, List.forall_mem_cons]
    exact ⟨.text "fan", hrange, hnat (by decide), hnat (by decide), hbrief, nofun⟩
  · refine .array ?_
    simp only [List.forall_mem_cons]
    exact ⟨.text "fan", hrange, hnat (by decide), hnat (by decide), hnat (by decide), .array nofun,
      hwordy, nofun⟩

/-- A map of one register, and the same with a note in it and everything else written out. -/
theorem respellings_load_alike_rpm :
    let descriptor : Descriptor := { start := 0, length := 1, name := "rpm" }
    let config : MapConfig := {
      name := "fan", range := ⟨2, 3, by decide⟩, probe := 9, defaultBaud := 300,
      registers := [descriptor] }
    let text := String.ofList rpmMapBrief.render
    let text' := String.ofList rpmMapWordy.render
    Configurable.ofJson rpmMapBrief = .ok config ∧ Configurable.ofText text = .ok config ∧
      (Document.ofText text').trailing = false ∧
      MapConfig.Respelled config.defaultBaud (.ofJson rpmMapBrief) (.ofJson rpmMapWordy) ∧
      MapConfig.Respelled config.defaultBaud (Document.ofText text).root
        (Document.ofText text').root ∧
      load {} rpmMapWordy = load {} rpmMapBrief ∧ loadText {} text' = loadText {} text ∧
      Configurable.ofJson rpmBrief = .ok descriptor ∧
      (Configurable.shape Descriptor).Respelled (.ofJson rpmBrief) (.ofJson rpmWordy) ∧
      Configurable.ofJson rpmWordy = .ok descriptor := by
  intro descriptor config text text'
  have htext : Document.ofText text = { root := .ofJson rpmMapBrief } :=
    Document.ofText_render plain_rpmMaps.1
  have htext' : Document.ofText text' = { root := .ofJson rpmMapWordy } :=
    Document.ofText_render plain_rpmMaps.2
  have hread : Configurable.ofText text = .ok config :=
    Configurable.ofText_eq_ok_iff.mpr ⟨by rw [htext], _, by rw [htext]; rfl, rfl⟩
  have htrailing : (Document.ofText text').trailing = false := by rw [htext']
  have hspelled : MapConfig.Respelled config.defaultBaud (Document.ofText text).root
      (Document.ofText text').root := by
    rw [htext, htext']
    exact respelled_rpmMap
  obtain ⟨⟨hdescriptor, -⟩, hload, hloadText⟩ := respellings_load_alike
  exact ⟨rfl, hread, htrailing, respelled_rpmMap, hspelled,
    (hload rpmMapBrief rpmMapWordy config rfl respelled_rpmMap).2 {},
    (hloadText text text' config hread htrailing hspelled).2 {}, rfl, respelled_rpm,
    hdescriptor.ofJson rpmBrief rpmWordy descriptor rfl respelled_rpm⟩

end Loader

end Modbus
