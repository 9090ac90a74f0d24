import Mathlib.Data.List.Nodup
import Modbus.Proofs.Config.RoundTrip
import Modbus.Proofs.Map.Loading
import Modbus.Proofs.Text.Utf8

/-!
# Directories, file by file

A directory is loaded as if its documents were loaded one by one (`Loader.loadTexts`), in the order
of the bytes of their names, up to the first that cannot be read or is refused. Each file is treated
as its text would be, except that an error names the file (`Loader.loadEntry_eq_error_iff`) by its
directory and its name (`PathName.text_join`). A run over the files ends behind those whose maps
were taken in (`Loader.exists_loadEntries_split`).

A directory may list its entries in any order, and with entries that are no documents among them:
what is loaded are the documents as sorted by name (`documentsOf_eq_of_perm`).
-/

namespace Modbus

/-! ### What errors call a file -/

/-- **A file is called** by its directory and its name, with a slash between them. -/
theorem PathName.text_join (directory name : PathName) :
    (directory.join name).text =
      directory.text ++ (if directory.bytes.getLast?.all (· = slash) then "" else "/") ++
        name.text := by
  have hparts : ∀ bytes rest : List UInt8, Utf8.decodeLossy (bytes ++ slash :: rest) =
      Utf8.decodeLossy bytes ++ "/" ++ Utf8.decodeLossy rest :=
    Utf8.decodeLossy_append_ascii (by decide)
  rw [join]
  split_ifs with hends
  · rcases List.eq_nil_or_concat' directory.bytes with hempty | ⟨before, last, hlast⟩
    · rw [text, text, text, hempty]
      rfl
    · obtain rfl : last = slash := by simpa [hlast] using hends
      have hdirectory : directory.text = Utf8.decodeLossy before ++ "/" := by
        rw [text, hlast, hparts]
        exact String.append_empty
      rw [hdirectory, String.append_empty, text, hlast, List.append_assoc]
      exact hparts before name.bytes
  · exact hparts directory.bytes name.bytes

/-! ### Which entries are loaded, and in which order -/

/-- The extension of a name stands behind its last point, if something stands before that. -/
theorem PathName.extension?_eq_some_iff {name : PathName} {extension : List UInt8}
    (hplain : point ∉ extension) :
    name.extension? = some extension ↔
      ∃ stem, stem ≠ [] ∧ name.bytes = stem ++ point :: extension := by
  rw [extension?]
  constructor
  · intro h
    have hsplit := List.takeWhile_append_dropWhile (p := (· ≠ point)) (l := name.bytes.reverse)
    have hhead := List.head?_dropWhile_not (· ≠ point) name.bytes.reverse
    split at h
    · next dot byte before hdrop =>
      rw [hdrop] at hhead hsplit
      have hdot : dot = point := of_not_not (of_decide_eq_false hhead)
      have hname := congrArg List.reverse hsplit
      rw [hdot, List.reverse_reverse] at hname
      cases h
      refine ⟨(byte :: before).reverse, by simp, hname.symm.trans ?_⟩
      simp
    · cases h
  · rintro ⟨stem, hstem, hname⟩
    have hbytes : name.bytes.reverse = extension.reverse ++ point :: stem.reverse := by
      rw [hname]
      simp
    have hpass : ∀ byte ∈ extension.reverse, decide (byte ≠ point) = true := by
      intro byte hmem
      exact decide_eq_true fun heq => hplain (heq ▸ List.mem_reverse.mp hmem)
    obtain ⟨last, before, hbefore⟩ :=
      List.exists_cons_of_ne_nil (List.reverse_ne_nil_iff.mpr hstem)
    rw [hbytes, List.dropWhile_append_of_pos hpass, List.takeWhile_append_of_pos hpass, hbefore]
    simp

namespace Entry

/-- **A document** is called something that ends in `.json`. -/
theorem isDocument_iff {entry : Entry} :
    entry.isDocument = true ↔
      ∃ stem, stem ≠ [] ∧ entry.name.bytes = stem ++ Utf8.encode ".json" := by
  have hjson : Utf8.encode ".json" = PathName.point :: Utf8.encode "json" := rfl
  rw [isDocument, decide_eq_true_iff, PathName.extension?_eq_some_iff (by decide), hjson]

/-- A file is read if it holds the bytes of a text. -/
theorem text?_eq_some_iff {entry : Entry} {text : String} :
    entry.text? = some text ↔ entry.content = some (Utf8.encode text) := by
  rw [text?, Option.bind_eq_some_iff]
  simp only [Utf8.decode?_eq_some_iff, exists_eq_right]

/-- The file holds the text of a document of this map. -/
def Holds (entry : Entry) (map : DeviceMap) : Prop :=
  ∃ text, entry.text? = some text ∧ (Loader.Step.loadText text).Gives map

end Entry

section Order

variable {entries entries' : List Entry}

theorem perm_documentsOf (entries : List Entry) :
    (documentsOf entries).Perm (entries.filter Entry.isDocument) :=
  List.mergeSort_perm _ _

theorem mem_documentsOf {entry : Entry} :
    entry ∈ documentsOf entries ↔ entry ∈ entries ∧ entry.isDocument = true := by
  rw [(perm_documentsOf entries).mem_iff, List.mem_filter]

theorem pairwise_documentsOf (entries : List Entry) :
    (documentsOf entries).Pairwise fun first second => first.name.bytes ≤ second.name.bytes := by
  have hsorted : (documentsOf entries).Pairwise fun first second =>
      decide (first.name.bytes ≤ second.name.bytes) = true := by
    refine List.pairwise_mergeSort ?_ ?_ _
    · intro first second third h h'
      exact decide_eq_true (List.le_trans (of_decide_eq_true h) (of_decide_eq_true h'))
    · intro first second
      rw [Bool.or_eq_true, decide_eq_true_iff, decide_eq_true_iff]
      exact List.le_total first.name.bytes second.name.bytes
  exact hsorted.imp of_decide_eq_true

/-- The documents of a directory have different names, as all its entries do. -/
theorem nodup_documentsOf (hdistinct : (entries.map Entry.name).Nodup) :
    ((documentsOf entries).map Entry.name).Nodup := by
  rw [((perm_documentsOf entries).map Entry.name).nodup_iff]
  exact hdistinct.sublist (List.filter_sublist.map Entry.name)

/-- Documents of different names stand in the order of the bytes of their names. -/
theorem ascending_documentsOf (hdistinct : (entries.map Entry.name).Nodup) :
    (documentsOf entries).Pairwise fun first second => first.name.bytes < second.name.bytes := by
  have hnodup := List.pairwise_map.mp (nodup_documentsOf hdistinct)
  refine hnodup.imp₂ (fun first second hne hle => ?_) (pairwise_documentsOf entries)
  exact Std.lt_of_le_of_ne hle fun heq => hne (PathName.ext heq)

/-- **The order of listing** does not matter, and neither do entries that are no documents. -/
theorem documentsOf_eq_of_perm (hdistinct : (entries.map Entry.name).Nodup)
    (hperm : (entries'.filter Entry.isDocument).Perm (entries.filter Entry.isDocument)) :
    documentsOf entries' = documentsOf entries := by
  have hsame : (documentsOf entries').Perm (documentsOf entries) :=
    (perm_documentsOf entries').trans (hperm.trans (perm_documentsOf entries).symm)
  refine hsame.eq_of_pairwise (fun first second hfirst hsecond hle hle' => ?_)
    (pairwise_documentsOf entries') (pairwise_documentsOf entries)
  exact List.inj_on_of_nodup_map (nodup_documentsOf hdistinct) (hsame.mem_iff.mp hfirst) hsecond
    (PathName.ext (List.le_antisymm hle hle'))

end Order

namespace Loader

/-! ### Files and their texts -/

variable {loader after : Loader} {path : PathName} {entry : Entry} {e : ConfigError}

/-- Take the maps of texts in, one by one, up to the first that is missing or refused. Says whether
all of them were taken in. -/
def loadTexts (loader : Loader) : List (Option String) → Bool × Loader
  | [] => (true, loader)
  | none :: _ => (false, loader)
  | some text :: texts =>
    match loader.loadText text with
    | .ok after => after.loadTexts texts
    | .error _ => (false, loader)

/-- Why a file is not taken in that is known as `source`. -/
inductive Refuses (loader : Loader) (source : String) (entry : Entry) : ConfigError → Prop
  | unreadable (htext : entry.text? = none) : Refuses loader source entry (.unreadable source)
  /-- The text is no document of a map. The error names the file. -/
  | document {text : String} {fault : Fault} (htext : entry.text? = some text)
    (hconfig : (Configurable.ofText text : Except Fault MapConfig) = .error fault)
    (hload : loader.loadText text = .error (.document documentName fault)) :
    Refuses loader source entry (.document source fault)
  /-- There is something wrong with the map. The error is that of the text. -/
  | map {text : String} {config : MapConfig} {e : ConfigError} (htext : entry.text? = some text)
    (hconfig : Configurable.ofText text = .ok config) (hload : loader.loadText text = .error e) :
    Refuses loader source entry e

/-- **A file is taken in** if its text is. -/
theorem loadEntry_eq_ok_iff :
    loader.loadEntry path entry = .ok after ↔
      ∃ text, entry.text? = some text ∧ loader.loadText text = .ok after := by
  rw [loadEntry]
  cases entry.text? with
  | none => exact iff_of_false (by rintro ⟨⟩) (by rintro ⟨text, ⟨⟩, -⟩)
  | some text =>
    simp only [Option.some.injEq, exists_eq_left', loadText, addConfig_eq_ok_iff]

/-- **A file is refused** as its text is. Only if the text is no document of a map, the error is
another one: it names the file. -/
theorem loadEntry_eq_error_iff :
    loader.loadEntry path entry = .error e ↔
      loader.Refuses (path.join entry.name).text entry e := by
  constructor
  · intro h
    rw [loadEntry] at h
    cases htext : entry.text? with
    | none =>
      rw [htext] at h
      cases h
      exact .unreadable htext
    | some text =>
      rw [htext] at h
      replace h : loader.addConfig _ (Configurable.ofText text) = _ := h
      cases hconfig : (Configurable.ofText text : Except Fault MapConfig) with
      | error fault =>
        rw [hconfig] at h
        cases h
        refine .document htext hconfig ?_
        rw [loadText, hconfig, addConfig]
      | ok config =>
        refine .map htext hconfig ?_
        -- what a text is called is of no account once it has been read
        rw [hconfig] at h
        rw [loadText, hconfig]
        exact h
  · rintro (htext | ⟨htext, hconfig, -⟩ | ⟨htext, hconfig, hload⟩)
    · rw [loadEntry, htext]
    · rw [loadEntry, htext]
      show loader.addConfig _ (Configurable.ofText _) = _
      rw [hconfig, addConfig]
    · rw [loadText, hconfig] at hload
      rw [loadEntry, htext]
      show loader.addConfig _ (Configurable.ofText _) = _
      rw [hconfig]
      exact hload

/-- **A run over files** ends at the first that is refused, or behind the last. The maps of those
before it are there. -/
theorem exists_loadEntries_split (loader : Loader) (path : PathName) (documents : List Entry) :
    ∃ (before rest : List Entry) (maps : List DeviceMap),
      documents = before ++ rest ∧ List.Forall₂ Entry.Holds before maps ∧
      (loader.loadEntries path documents).2 = { maps := loader.maps ++ maps } ∧
      loader.loadTexts (before.map Entry.text?) = (true, { maps := loader.maps ++ maps }) ∧
      ((rest = [] ∧ (loader.loadEntries path documents).1 = .ok ()) ∨
        ∃ entry others e, rest = entry :: others ∧
          (loader.loadEntries path documents).1 = .error e ∧
          Refuses { maps := loader.maps ++ maps } (path.join entry.name).text entry e) := by
  have hsame : ∀ loader : Loader, loader = { maps := loader.maps ++ [] } := by
    intro loader
    rw [List.append_nil]
  induction documents generalizing loader with
  | nil =>
    exact ⟨[], [], [], rfl, .nil, hsame loader, congrArg (Prod.mk true) (hsame loader),
      .inl ⟨rfl, rfl⟩⟩
  | cons entry documents ih =>
    rw [loadEntries]
    cases hentry : loader.loadEntry path entry with
    | error e =>
      have hrefuses := loadEntry_eq_error_iff.mp hentry
      rw [hsame loader] at hrefuses
      exact ⟨[], entry :: documents, [], rfl, .nil, hsame loader,
        congrArg (Prod.mk true) (hsame loader), .inr ⟨entry, documents, e, rfl, rfl, hrefuses⟩⟩
    | ok after =>
      obtain ⟨text, htext, hload⟩ := loadEntry_eq_ok_iff.mp hentry
      obtain ⟨config, map, hconfig, hmap, hadd⟩ := addConfig_eq_ok_iff.mp hload
      obtain ⟨-, rfl⟩ := add_eq_ok_iff.mp hadd
      obtain ⟨before, rest, maps, hsplit, hholds, hloader, htexts, hend⟩ :=
        ih { maps := loader.maps ++ [map] }
      simp only [List.append_assoc, List.singleton_append] at hloader htexts hend
      refine ⟨entry :: before, rest, map :: maps, ?_, ?_, hloader, ?_, hend⟩
      · rw [hsplit, List.cons_append]
      · exact .cons ⟨text, htext, config, hconfig, hmap⟩ hholds
      · rw [List.map_cons, htext, loadTexts, hload]
        exact htexts

/-- The files are treated as their texts would be. -/
theorem loadTexts_eq (loader : Loader) (path : PathName) (documents : List Entry) :
    (loader.loadTexts (documents.map Entry.text?)).2 = (loader.loadEntries path documents).2 ∧
    ((loader.loadTexts (documents.map Entry.text?)).1 = true ↔
      (loader.loadEntries path documents).1 = .ok ()) := by
  induction documents generalizing loader with
  | nil => exact ⟨rfl, iff_of_true rfl rfl⟩
  | cons entry documents ih =>
    rw [List.map_cons, loadEntries]
    cases hentry : loader.loadEntry path entry with
    | ok after =>
      obtain ⟨text, htext, hload⟩ := loadEntry_eq_ok_iff.mp hentry
      rw [htext, loadTexts, hload]
      exact ih after
    | error e =>
      obtain htext | ⟨htext, -, hload⟩ | ⟨htext, -, hload⟩ := loadEntry_eq_error_iff.mp hentry
      · rw [htext]
        exact ⟨rfl, iff_of_false (by rintro ⟨⟩) (by rintro ⟨⟩)⟩
      · rw [htext, loadTexts, hload]
        exact ⟨rfl, iff_of_false (by rintro ⟨⟩) (by rintro ⟨⟩)⟩
      · rw [htext, loadTexts, hload]
        exact ⟨rfl, iff_of_false (by rintro ⟨⟩) (by rintro ⟨⟩)⟩

/-- **Loading a directory** is loading its documents one by one. The documents are the entries that
are called something that ends in `.json`. They come in the order of the bytes of their names,
whatever order they are listed in and whatever else is listed. A file can be read if it holds the
bytes of a text. The outcome and the loader are as if the texts of the documents were loaded one
after the other, up to the first that cannot be read or is refused: the maps of those before it are
there, and the error is that of the text, but for a text that is no document, where it names the
file. -/
theorem loadDirectory_loads_texts (loader : Loader) (path : PathName) {entries : List Entry}
    (hdistinct : (entries.map Entry.name).Nodup) :
    let outcome := loader.loadDirectory { path, entries := some entries }
    let documents := documentsOf entries
    let texts := documents.map Entry.text?
    (∀ entry, entry ∈ documents ↔
      entry ∈ entries ∧ ∃ stem, stem ≠ [] ∧ entry.name.bytes = stem ++ Utf8.encode ".json") ∧
    (documents.Pairwise fun first second => first.name.bytes < second.name.bytes) ∧
    (∀ (entry : Entry) (text : String),
      entry.text? = some text ↔ entry.content = some (Utf8.encode text)) ∧
    (∀ entries' : List Entry,
      (entries'.filter Entry.isDocument).Perm (entries.filter Entry.isDocument) →
        loader.loadDirectory { path, entries := some entries' } = outcome) ∧
    (outcome.2 = (loader.loadTexts texts).2 ∧
      (outcome.1 = .ok () ↔ (loader.loadTexts texts).1 = true)) ∧
    ∃ (before rest : List Entry) (maps : List DeviceMap),
      let reached : Loader := { maps := loader.maps ++ maps }
      documents = before ++ rest ∧ List.Forall₂ Entry.Holds before maps ∧ outcome.2 = reached ∧
      loader.loadTexts (before.map Entry.text?) = (true, reached) ∧
      ((rest = [] ∧ outcome.1 = .ok ()) ∨
        ∃ entry others e, rest = entry :: others ∧ outcome.1 = .error e ∧
          reached.Refuses (path.join entry.name).text entry e) := by
  intro outcome documents texts
  obtain ⟨hstate, hverdict⟩ := loader.loadTexts_eq path documents
  refine ⟨fun entry => ?_, ascending_documentsOf hdistinct,
    fun entry text => Entry.text?_eq_some_iff, fun entries' hperm => ?_,
    ⟨hstate.symm, hverdict.symm⟩, loader.exists_loadEntries_split path documents⟩
  · rw [mem_documentsOf, Entry.isDocument_iff]
  · show loader.loadEntries path (documentsOf entries') = loader.loadEntries path documents
    rw [documentsOf_eq_of_perm hdistinct hperm]

/-- Three entries as they are listed. Of the two documents, the first by name is taken in and the
second cannot be read. -/
theorem loadDirectory_loads_texts_two :
    let fan : Entry := {
      name := "fan.json", content := some (Utf8.encode "[\"fan\",[2,3],9,300,null,[],[]]") }
    let pump : Entry := { name := "pump.json", content := none }
    let notes : Entry := { name := "notes", content := some [] }
    let map : DeviceMap := {
      range := { low := 2, high := 3 }, name := "fan", probe := 9, defaultBaud := 300
      preferredBaud := 300 }
    let outcome := loadDirectory {} { path := "maps", entries := some [pump, notes, fan] }
    ([pump, notes, fan].map Entry.name).Nodup ∧ documentsOf [pump, notes, fan] = [fan, pump] ∧
      loadDirectory {} { path := "maps", entries := some [fan, pump] } = outcome ∧
      outcome = (.error (.unreadable "maps/pump.json"), { maps := [map] }) := by
  intro fan pump notes map outcome
  have hdistinct : ([pump, notes, fan].map Entry.name).Nodup := by decide
  obtain ⟨-, -, -, hlisted, -, -⟩ := loadDirectory_loads_texts {} "maps" hdistinct
  have hperm : ([fan, pump].filter Entry.isDocument).Perm
      ([pump, notes, fan].filter Entry.isDocument) := by decide
  have hfilter : [fan, pump].filter Entry.isDocument = [fan, pump] := by decide
  have hsorted : documentsOf [fan, pump] = [fan, pump] := by
    rw [documentsOf, hfilter]
    exact List.mergeSort_of_pairwise (by decide)
  have htext : fan.text? = some "[\"fan\",[2,3],9,300,null,[],[]]" :=
    Entry.text?_eq_some_iff.mpr rfl
  have hrange : (Json.array [.nat 2, .nat 3]).Plain 1 :=
    .pair (Json.plain_nat (by decide)) (Json.plain_nat (by decide))
  have hplain : (Json.array [.text "fan", .array [.nat 2, .nat 3], .nat 9, .nat 300, .null,
      .array [], .array []]).Plain 2 := by
    refine .array ?_
    simp only [List.forall_mem_cons]
    exact ⟨.text "fan", hrange, Json.plain_nat (by decide), Json.plain_nat (by decide), .null,
      .array nofun, .array nofun, nofun⟩
  have hdoc : Document.ofText "[\"fan\",[2,3],9,300,null,[],[]]" =
      { root := .ofJson (.array [.text "fan", .array [.nat 2, .nat 3], .nat 9, .nat 300, .null,
        .array [], .array []]) } := by
    rw [← Document.ofText_render hplain]
    exact congrArg Document.ofText (by decide)
  have hfan : loadEntry {} "maps" fan = .ok { maps := [map] } := by
    refine loadEntry_eq_ok_iff.mpr ⟨_, htext, ?_⟩
    rw [loadText, Configurable.ofText, hdoc]
    rfl
  have hlast : loadDirectory {} { path := "maps", entries := some [fan, pump] } =
      (.error (.unreadable "maps/pump.json"), { maps := [map] }) := by
    show loadEntries {} "maps" (documentsOf [fan, pump]) = _
    rw [hsorted, loadEntries, hfan]
    rfl
  refine ⟨hdistinct, ?_, hlisted _ hperm, (hlisted _ hperm).symm.trans hlast⟩
  rw [← hsorted]
  exact (documentsOf_eq_of_perm hdistinct hperm).symm

end Loader

end Modbus
