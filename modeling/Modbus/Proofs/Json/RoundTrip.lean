import Modbus.Json.Reader
import Modbus.Proofs.Json.Alike
import Modbus.Proofs.Json.Words

/-!
# Values are read as they are written

The numbers of `Json.Plain` values are whole and have 64 bits, and their objects have no key twice.
What is written of one is read as that value: a reader that awaits a value takes in what
`Json.render` writes and is then behind the value (`Json.Plain.isReadBack`). So the text that is
written has the value as its document (`Document.ofText_render`), and this document can be read as a
whole (`Json.Plain.exists_jsonWithin?`).
-/

namespace Modbus

/-- Values with whole numbers of 64 bits and without a key twice in an object. Arrays and objects
nest no deeper than `depth`. -/
inductive Json.Plain : Nat → Json → Prop
  | null {depth : Nat} : Plain depth .null
  | bool {depth : Nat} (value : Bool) : Plain depth (.bool value)
  | integer {depth : Nat} {n : Int} (h : Numeral.Fits n) : Plain depth (.number (.integer n))
  | text {depth : Nat} (value : String) : Plain depth (.text value)
  | array {depth : Nat} {items : List Json} (h : ∀ item ∈ items, Plain depth item) :
    Plain (depth + 1) (.array items)
  | object {depth : Nat} {members : List (String × Json)} (hkeys : (members.map Prod.fst).Nodup)
    (h : ∀ member ∈ members, Plain depth member.2) : Plain (depth + 1) (.object members)

/-- A value may nest deeper than it does. -/
theorem Json.Plain.mono {depth depth' : Nat} {json : Json} (h : json.Plain depth)
    (hle : depth ≤ depth') : json.Plain depth' := by
  induction h generalizing depth' with
  | null => exact .null
  | bool value => exact .bool value
  | integer hfits => exact .integer hfits
  | text value => exact .text value
  | array _ ih =>
    obtain ⟨depth', rfl⟩ := Nat.exists_eq_add_of_le' hle
    exact .array fun item hmem => ih item hmem (Nat.le_add_left _ _)
  | object hkeys _ ih =>
    obtain ⟨depth', rfl⟩ := Nat.exists_eq_add_of_le' hle
    exact .object hkeys fun member hmem => ih member hmem (Nat.le_add_left _ _)

/-! ### Reading what is written -/

namespace Reader

/-- The state behind a text. -/
def read (reader : Reader) (text : List Char) : Reader :=
  (Token.scan text).foldl step reader

variable {reader : Reader} {stack : List Enclosing} {rest : List Char}

theorem read_nil (reader : Reader) : reader.read [] = reader := by
  rw [read, Token.scan]
  rfl

theorem read_of_scan {text : List Char} {token : Token}
    (h : Token.scan text = token :: Token.scan rest) :
    reader.read text = (reader.step token).read rest := by
  rw [read, h]
  rfl

theorem read_mark (char : Char) (token : Token) (hblank : Token.isBlank char = false)
    (h : Token.mark? char = some token) :
    reader.read (char :: rest) = (reader.step token).read rest :=
  read_of_scan (Token.scan_mark char token hblank h rest)

/-- A value may come next, inside of the arrays and objects of the stack. -/
def Awaits (reader : Reader) (stack : List Enclosing) : Prop :=
  ∀ token : Token, token ≠ .arrayClose → reader.step token = readValue stack token

theorem Awaits.read {text : List Char} {token : Token} (h : reader.Awaits stack)
    (hscan : Token.scan text = token :: Token.scan rest) (hne : token ≠ .arrayClose) :
    reader.read text = (readValue stack token).read rest := by
  rw [read_of_scan hscan, h token hne]

theorem awaits_nextValue (stack : List Enclosing) : (nextValue stack).Awaits stack :=
  fun _ _ => rfl

/-- The first item of an array may come next. -/
theorem awaits_itemOrEnd (stack : List Enclosing) :
    (itemOrEnd stack).Awaits (.array [] :: stack) := by
  intro token hne
  cases token with
  | arrayClose => exact absurd rfl hne
  | _ => rfl

end Reader

namespace Json

/-- What is written of the value is read as the value, wherever one is awaited. -/
def IsReadBack (json : Json) : Prop :=
  ∀ {reader : Reader} {stack : List Enclosing} {rest : List Char}, reader.Awaits stack →
    Numeral.EndsBefore rest →
      reader.read (json.render ++ rest) = (Reader.complete (Doc.ofJson json) stack).read rest

/-- No number goes on behind an item. -/
theorem endsBefore_renderItems (items : List Json) (rest : List Char) :
    Numeral.EndsBefore (renderItems items ++ rest) := by
  cases items with
  | nil =>
    rintro c ⟨⟩
    decide
  | cons =>
    rintro c ⟨⟩
    decide

/-- No number goes on behind a member. -/
theorem endsBefore_renderMembers (members : List (String × Json)) (rest : List Char) :
    Numeral.EndsBefore (renderMembers members ++ rest) := by
  cases members with
  | nil =>
    rintro c ⟨⟩
    decide
  | cons =>
    rintro c ⟨⟩
    decide

/-- Further items are read behind those that have been read. -/
theorem read_renderItems {items : List Json} (h : ∀ item ∈ items, item.IsReadBack)
    (before : List Doc) (stack : List Enclosing) (rest : List Char) :
    (Reader.afterItem before stack).read (renderItems items ++ rest) =
      (Reader.complete (.array ((Items.ofJsons items).prepend before)) stack).read rest := by
  induction items generalizing before with
  | nil => exact Reader.read_mark ']' .arrayClose rfl rfl
  | cons item items ih =>
    obtain ⟨hitem, hitems⟩ := List.forall_mem_cons.mp h
    rw [renderItems, List.cons_append, List.cons_append, List.append_assoc]
    calc (Reader.afterItem before stack).read (',' :: (item.render ++ (renderItems items ++ rest)))
      _ = (Reader.nextValue (.array before :: stack)).read
          (item.render ++ (renderItems items ++ rest)) := Reader.read_mark ',' .comma rfl rfl
      _ = (Reader.afterItem (Doc.ofJson item :: before) stack).read (renderItems items ++ rest) :=
        hitem (Reader.awaits_nextValue _) (endsBefore_renderItems items rest)
      _ = _ := ih hitems (Doc.ofJson item :: before)

/-- The key of a member and its value. -/
theorem read_member {value : Json} (h : value.IsReadBack) {reader : Reader} {key : String}
    {before : List (Option String × Doc)} {stack : List Enclosing} {rest : List Char}
    (hreader : reader.step (.text (some key)) = .nextColon before (some key) stack)
    (hrest : Numeral.EndsBefore rest) :
    reader.read (quote key ++ (':' :: (value.render ++ rest))) =
      (Reader.afterMember ((some key, Doc.ofJson value) :: before) stack).read rest := by
  rw [Reader.read_of_scan (Token.scan_quote key _), hreader, Reader.read_mark ':' .colon rfl rfl]
  exact h (Reader.awaits_nextValue _) hrest

/-- Further members are read behind those that have been read. -/
theorem read_renderMembers {members : List (String × Json)}
    (h : ∀ member ∈ members, member.2.IsReadBack) (before : List (Option String × Doc))
    (stack : List Enclosing) (rest : List Char) :
    (Reader.afterMember before stack).read (renderMembers members ++ rest) =
      (Reader.complete (.object ((Members.ofJsons members).prepend before)) stack).read rest := by
  induction members generalizing before with
  | nil => exact Reader.read_mark '\x7d' .objectClose rfl rfl
  | cons member members ih =>
    obtain ⟨key, value⟩ := member
    obtain ⟨hvalue, hmembers⟩ := List.forall_mem_cons.mp h
    simp only [renderMembers, List.cons_append, List.append_assoc]
    rw [Reader.read_mark ',' .comma rfl rfl]
    refine (read_member hvalue rfl (endsBefore_renderMembers members rest)).trans ?_
    exact ih hmembers _

/-- **What is written of a plain value** is read as that value. -/
theorem Plain.isReadBack {depth : Nat} {json : Json} (h : json.Plain depth) : json.IsReadBack := by
  induction h with
  | null =>
    intro reader stack rest hawaits _
    exact hawaits.read (Token.scan_null rest) nofun
  | bool value =>
    intro reader stack rest hawaits _
    cases value with
    | false => exact hawaits.read (Token.scan_false rest) nofun
    | true => exact hawaits.read (Token.scan_true rest) nofun
  | integer hfits =>
    intro reader stack rest hawaits hrest
    exact hawaits.read (Token.scan_integer hfits hrest) nofun
  | text value =>
    intro reader stack rest hawaits _
    exact hawaits.read (Token.scan_quote value rest) nofun
  | @array depth items _ ih =>
    intro reader stack rest hawaits _
    have hopen (text : List Char) :
        reader.read ('[' :: text) = (Reader.itemOrEnd stack).read text :=
      hawaits.read (Token.scan_mark '[' .arrayOpen rfl rfl text) nofun
    cases items with
    | nil => exact (hopen _).trans (Reader.read_mark ']' .arrayClose rfl rfl)
    | cons item items =>
      obtain ⟨hitem, hitems⟩ := List.forall_mem_cons.mp ih
      rw [render, List.cons_append, List.cons_append, List.append_assoc, hopen]
      refine (hitem (Reader.awaits_itemOrEnd stack) (endsBefore_renderItems items rest)).trans ?_
      exact read_renderItems hitems [Doc.ofJson item] stack rest
  | @object depth members _ _ ih =>
    intro reader stack rest hawaits _
    have hopen (text : List Char) :
        reader.read ('\x7b' :: text) = (Reader.keyOrEnd stack).read text :=
      hawaits.read (Token.scan_mark '\x7b' .objectOpen rfl rfl text) nofun
    cases members with
    | nil => exact (hopen _).trans (Reader.read_mark '\x7d' .objectClose rfl rfl)
    | cons member members =>
      obtain ⟨key, value⟩ := member
      obtain ⟨hvalue, hmembers⟩ := List.forall_mem_cons.mp ih
      simp only [render, List.cons_append, List.append_assoc]
      rw [hopen]
      refine (read_member hvalue rfl (endsBefore_renderMembers members rest)).trans ?_
      exact read_renderMembers hmembers [(some key, Doc.ofJson value)] stack rest

end Json

/-- **The text that is written of a plain value** has this value as its document, and nothing behind
it. -/
theorem Document.ofText_render {depth : Nat} {json : Json} (h : json.Plain depth) :
    ofText (String.ofList json.render) = { root := Doc.ofJson json } := by
  have hend : Numeral.EndsBefore [] := nofun
  have hread := h.isReadBack (Reader.awaits_nextValue []) hend
  rw [List.append_nil, Reader.read_nil] at hread
  have hstop := congrArg Reader.stop hread
  rw [ofText, String.toList_ofList]
  exact hstop

/-! ### Reading documents of plain values as a whole -/

namespace Json.Plain

/-- The items of an array have values. -/
theorem exists_jsonsWithin?_items {depth : Nat} {items : List Json}
    (h : ∀ item ∈ items, ∃ result, (Doc.ofJson item).jsonWithin? depth = some result) :
    ∃ results, (Items.ofJsons items).jsonsWithin? depth = some results := by
  induction items with
  | nil => exact ⟨[], rfl⟩
  | cons item items ih =>
    obtain ⟨hitem, hitems⟩ := List.forall_mem_cons.mp h
    obtain ⟨result, hresult⟩ := hitem
    obtain ⟨results, hresults⟩ := ih hitems
    refine ⟨result :: results, ?_⟩
    rw [Items.ofJsons, Items.jsonsWithin?, hresult, hresults]
    rfl

/-- The members of an object have values. -/
theorem exists_jsonsWithin?_members {depth : Nat} {members : List (String × Json)}
    (h : ∀ member ∈ members, ∃ result, (Doc.ofJson member.2).jsonWithin? depth = some result)
    (before : List (String × Json)) :
    ∃ results, (Members.ofJsons members).jsonsWithin? depth before = some results := by
  induction members generalizing before with
  | nil => exact ⟨before, rfl⟩
  | cons member members ih =>
    obtain ⟨key, value⟩ := member
    obtain ⟨hvalue, hmembers⟩ := List.forall_mem_cons.mp h
    obtain ⟨result, hresult⟩ := hvalue
    obtain ⟨results, hresults⟩ := ih hmembers (Json.insert key result before)
    refine ⟨results, ?_⟩
    rw [Members.ofJsons, Members.jsonsWithin?, hresult]
    exact hresults

/-- **The document of a plain value** can be read as a whole, if arrays and objects may nest as deep
as they do. -/
theorem exists_jsonWithin? {depth : Nat} {json : Json} (h : json.Plain depth) :
    ∃ result, (Doc.ofJson json).jsonWithin? depth = some result := by
  induction h with
  | null => exact ⟨.null, rfl⟩
  | bool value => exact ⟨.bool value, rfl⟩
  | @integer _ n _ => exact ⟨.number (.integer n), rfl⟩
  | text value => exact ⟨.text value, rfl⟩
  | @array depth items _ ih =>
    obtain ⟨results, hresults⟩ := exists_jsonsWithin?_items ih
    refine ⟨.array results, ?_⟩
    rw [Doc.ofJson, Doc.jsonWithin?, if_neg (Nat.succ_ne_zero depth), Nat.add_sub_cancel, hresults]
    rfl
  | @object depth members _ _ ih =>
    obtain ⟨results, hresults⟩ := exists_jsonsWithin?_members ih []
    refine ⟨.object results, ?_⟩
    rw [Doc.ofJson, Doc.jsonWithin?, if_neg (Nat.succ_ne_zero depth), Nat.add_sub_cancel, hresults]
    rfl

theorem keysDistinct_items {items : List Json}
    (h : ∀ item ∈ items, (Doc.ofJson item).keysDistinct = true) :
    (Items.ofJsons items).keysDistinct = true := by
  induction items with
  | nil => rfl
  | cons item items ih =>
    obtain ⟨hitem, hitems⟩ := List.forall_mem_cons.mp h
    rw [Items.ofJsons, Items.keysDistinct, hitem, ih hitems]
    rfl

theorem keysDistinct_members {members : List (String × Json)}
    (h : ∀ member ∈ members, (Doc.ofJson member.2).keysDistinct = true) :
    (Members.ofJsons members).keysDistinct = true := by
  induction members with
  | nil => rfl
  | cons member members ih =>
    obtain ⟨hvalue, hmembers⟩ := List.forall_mem_cons.mp h
    rw [Members.ofJsons, Members.keysDistinct, hvalue, ih hmembers]
    rfl

theorem keys_ofJsons (members : List (String × Json)) :
    (Members.ofJsons members).keys = (members.map Prod.fst).map some := by
  induction members with
  | nil => rfl
  | cons member members ih => rw [Members.ofJsons, Members.keys, ih, List.map_cons, List.map_cons]

/-- No object of the document of a plain value has a key twice. -/
theorem keysDistinct {depth : Nat} {json : Json} (h : json.Plain depth) :
    (Doc.ofJson json).keysDistinct = true := by
  induction h with
  | null | bool | integer | text => rfl
  | array _ ih => exact keysDistinct_items ih
  | object hkeys _ ih =>
    have hnodup := hkeys.map fun _ _ heq => Option.some.inj heq
    rw [Doc.ofJson, Doc.keysDistinct, keys_ofJsons, decide_eq_true hnodup, keysDistinct_members ih]
    rfl

end Json.Plain

end Modbus
