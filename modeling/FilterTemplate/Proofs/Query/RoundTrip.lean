/-
  FilterTemplate.Proofs.Query.RoundTrip

  Prepared queries that are written as JSON and read back. The printed object
  has its two fields in either layout, the template as a string and the values
  as an object in the order of insertion; each field is read where it stands.
  What is read is the query with its values normalized, which prints as the
  query does.
-/
import FilterTemplate.Proofs.Json.Printing
import FilterTemplate.Proofs.Params.Reading
import FilterTemplate.Proofs.Table
import FilterTemplate.Proofs.Value.Normalization

namespace FilterTemplate

open Json (Layout Spells SpellsString SpellsObject IsSpaces)
open Json.Reader (EndsNumeral)

/-! ## Tables -/

theorem Params.toJson_normalized (p : Params) : p.normalized.toJson = p.toJson := by
  simp only [toJson, normalized, Table.map, List.map_map, Function.comp_def,
    Value.toJson_normalized]

/-- The members of the printed table, in order. -/
def Params.members (p : Params) : List (String × Json) :=
  p.entries.map fun (name, v) => (name, v.toJson)

/-- The members of a table are printed as those of a value are. -/
theorem Params.textAt_toJson (p : Params) (layout : Layout) (level : Nat) :
    p.toJson.textAt layout level =
      layout.container level '\x7b' '\x7d'
        (p.members.map (Json.memberText layout (level + 1))) := by
  rw [members, List.map_map, toJson, Json.Document.object]
  refine congrArg (layout.container level '\x7b' '\x7d') ?_
  rw [List.map_map]
  rfl

/-- Setting the members of a table one after the other makes that table. -/
theorem Params.ofList_members (p : Params) :
    Table.ofList (p.members.map entryOf) = p.normalized := by
  have hentries : p.members.map entryOf = p.normalized.entries := by
    rw [members, normalized, Table.map, List.map_map]
    rfl
  rw [hentries, Table.ofList_entries]

namespace Prepared

variable {p : Prepared}

/-! ## The printed fields -/

/-- The text of the values is an object that has them in their order. -/
theorem spellsObject_values (h : p.IsPortable) (layout : Layout) (level : Nat) :
    SpellsObject (Spells 125) (p.values.toJson.textAt layout level) p.values.members := by
  have hmembers : ∀ m ∈ p.values.members,
      Json.SpellsMember (Spells 125) (Json.memberText layout (level + 1) m) m := by
    intro m hm
    obtain ⟨e, he, rfl⟩ := List.mem_map.1 hm
    exact Json.spellsMember_memberText layout (level + 1)
      (Json.spells_textAt layout (level + 1) 125 e.2.toJson (h.no_float e he) (h.depth_le e he))
  obtain ⟨inner, hinner, htext⟩ := layout.exists_container_eq level '\x7b' '\x7d' hmembers
  refine ⟨inner, hinner, ?_⟩
  rw [Params.textAt_toJson, htext]

theorem readValues_textAt (h : p.IsPortable) (layout : Layout) (level : Nat) {rest : List Char}
    (hrest : EndsNumeral rest) :
    readValues (p.values.toJson.textAt layout level ++ rest) = .ok (p.values.normalized, rest) :=
  (Params.agrees_read 125).complete
    ⟨_, spellsObject_values h layout level, (Params.ofList_members p.values).symm⟩ hrest

theorem readTemplate_stringText (template : String) (rest : List Char) :
    readTemplate (Json.stringText template ++ rest) = .ok (template, rest) := by
  have hread := Json.Reader.quoteThen_string_complete (Json.spellsString_stringText template) rest
  rw [Json.stringText, List.cons_append, Json.Reader.quoteThen, if_pos rfl] at hread
  rw [Json.stringText, List.cons_append, readTemplate, Json.Reader.expectString,
    Json.Reader.skipSpace_cons (by decide)]
  exact hread

/-! ## Reading the fields -/

theorem colon_layout (layout : Layout) (s : List Char) :
    ∃ spaces, IsSpaces spaces ∧ Json.Reader.colon (layout.colon ++ s) = .ok (spaces ++ s) := by
  cases layout with
  | compact => exact ⟨[], Json.Reader.isSpaces_nil, rfl⟩
  | indented => exact ⟨[' '], Json.Reader.isSpaces_singleton (by decide), rfl⟩

theorem member_template (layout : Layout) (template : String) (values : Option Params)
    (rest : List Char) :
    member ⟨none, values⟩ (layout.member "raw" (Json.stringText template) ++ rest) =
      .ok (⟨some template, values⟩, rest) := by
  obtain ⟨spaces, hspaces, hcolon⟩ := colon_layout layout (Json.stringText template ++ rest)
  have hname := Json.Reader.quoteThen_string_complete (Json.spellsString_stringText "raw")
    (layout.colon ++ (Json.stringText template ++ rest))
  have htemplate : readTemplate (spaces ++ (Json.stringText template ++ rest)) =
      .ok (template, rest) := by
    rw [← readTemplate_stringText template rest, readTemplate, Json.Reader.expectString,
      Json.Reader.expectString, Json.Reader.skipSpace_append hspaces]
  rw [Layout.member, List.append_assoc, List.append_assoc, member, hname]
  simp [bind, Except.bind, pure, Except.pure, hcolon, htemplate]

theorem member_values (h : p.IsPortable) (layout : Layout) (level : Nat)
    (template : Option String) {rest : List Char} (hrest : EndsNumeral rest) :
    member ⟨template, none⟩ (layout.member "values" (p.values.toJson.textAt layout level) ++ rest) =
      .ok (⟨template, some p.values.normalized⟩, rest) := by
  obtain ⟨spaces, hspaces, hcolon⟩ :=
    colon_layout layout (p.values.toJson.textAt layout level ++ rest)
  have hname := Json.Reader.quoteThen_string_complete (Json.spellsString_stringText "values")
    (layout.colon ++ (p.values.toJson.textAt layout level ++ rest))
  have hvalues : readValues (spaces ++ (p.values.toJson.textAt layout level ++ rest)) =
      .ok (p.values.normalized, rest) := by
    rw [readValues, Params.skipsSpace_read _ _ hspaces]
    exact readValues_textAt h layout level hrest
  rw [Layout.member, List.append_assoc, List.append_assoc, member, hname]
  simp [bind, Except.bind, pure, Except.pure, hcolon, hvalues]

theorem exists_member_eq (layout : Layout) (key : String) (value rest : List Char) :
    ∃ t, layout.member key value ++ rest = '"' :: t :=
  ⟨_, rfl⟩

theorem skipSpace_append_member {before : List Char} (hbefore : IsSpaces before)
    (layout : Layout) (key : String) (value rest : List Char) :
    Json.Reader.skipSpace (before ++ (layout.member key value ++ rest)) =
      layout.member key value ++ rest := by
  obtain ⟨t, ht⟩ := exists_member_eq layout key value rest
  rw [ht, Json.Reader.skipSpace_append_cons hbefore (by decide)]

/-- Both fields are read one after the other up to the mark behind them. -/
theorem items_fields (h : p.IsPortable) (layout : Layout) {before between after : List Char}
    (hbefore : IsSpaces before) (hbetween : IsSpaces between) (hafter : IsSpaces after) :
    Json.Reader.items '\x7d' member ⟨none, none⟩
      (before ++ (layout.member "raw" (Json.stringText p.template) ++
        ',' :: (between ++ (layout.member "values" (p.values.toJson.textAt layout 1) ++
          (after ++ ['\x7d']))))) =
      .ok (⟨some p.template, some p.values.normalized⟩, []) := by
  have hends : EndsNumeral (after ++ ['\x7d']) :=
    Json.Reader.endsNumeral_append hafter (Json.Reader.endsNumeral_cons (by decide))
  have hvalues := member_values h layout 1 (some p.template) hends
  generalize hsecond : between ++ (layout.member "values" (p.values.toJson.textAt layout 1) ++
    (after ++ ['\x7d'])) = second
  -- The first field ends at the comma, which leaves a shorter text.
  have htemplate := member_template layout p.template none (',' :: second)
  have hskip := skipSpace_append_member hbefore layout "raw" (Json.stringText p.template)
    (',' :: second)
  obtain ⟨t, ht⟩ := exists_member_eq layout "raw" (Json.stringText p.template) (',' :: second)
  have hlt : (Json.Reader.skipSpace second).length <
      (layout.member "raw" (Json.stringText p.template) ++ ',' :: second).length := by
    have hle := Json.Reader.length_skipSpace_le second
    simp only [List.length_append, List.length_cons]
    omega
  rw [Json.Reader.items_of_ne (hskip.trans ht) (by decide), hskip,
    Json.Reader.remainingItems_comma (by decide) htemplate
      (Json.Reader.skipSpace_cons (by decide) second) hlt, ← hsecond,
    skipSpace_append_member hbetween]
  exact Json.Reader.remainingItems_last hvalues
    (Json.Reader.skipSpace_append_cons hafter (by decide) [])

/-! ## Whole texts -/

/-- The two fields stand behind each other, with nothing but white space around them. -/
theorem exists_text_eq (p : Prepared) (layout : Layout) :
    ∃ before between after, IsSpaces before ∧ IsSpaces between ∧ IsSpaces after ∧
      p.toJson.text layout = '\x7b' :: (before ++
        (layout.member "raw" (Json.stringText p.template) ++
          ',' :: (between ++ (layout.member "values" (p.values.toJson.textAt layout 1) ++
            (after ++ ['\x7d']))))) := by
  refine ⟨layout.lineBreak 1, layout.lineBreak 1, layout.lineBreak 0,
    layout.isSpaces_lineBreak 1, layout.isSpaces_lineBreak 1, layout.isSpaces_lineBreak 0, ?_⟩
  simp [toJson, Json.Document.text, Json.Document.object, Json.Document.ofJson, Json.textAt,
    Layout.container, Layout.following]

theorem ofText_text (h : p.IsPortable) (layout : Layout) :
    ofText (p.toJson.text layout) = .ok p.normalized := by
  obtain ⟨before, between, after, hbefore, hbetween, hafter, htext⟩ := p.exists_text_eq layout
  have hread : read (p.toJson.text layout) = .ok (p.normalized, []) := by
    have hfields := items_fields h layout hbefore hbetween hafter
    rw [← Json.Reader.expectMembers_cons expected] at hfields
    rw [htext, read, Json.Reader.skipSpace_cons (by decide)]
    exact Json.Reader.bind_eq_ok_iff.2 ⟨_, hfields, rfl⟩
  rw [ofText, Json.whole, hread]
  rfl

theorem toJson_normalized (p : Prepared) : p.normalized.toJson = p.toJson := by
  rw [toJson, toJson, normalized, Params.toJson_normalized]

/-- A prepared query without floating-point numbers that does not nest too deep is read back from
its text in either layout. The template and the names stay, every value has made a turn through
JSON, which the values that JSON has a form of survive, and what is read prints as before. -/
theorem ofText_toJson_eq_normalized (h : p.IsPortable) :
    ofText p.toJson.compact.toList = .ok p.normalized ∧
      ofText p.toJson.indented.toList = .ok p.normalized ∧
      p.normalized.template = p.template ∧
      p.normalized.values.entries =
        p.values.entries.map (fun (name, v) => (name, .ofJson v.toJson)) ∧
      (∀ v : Value, v.IsNormal → .ofJson v.toJson = v) ∧
      p.normalized.toJson.compact = p.toJson.compact ∧
      p.normalized.toJson.indented = p.toJson.indented := by
  have hread (layout : Layout) :
      ofText (String.ofList (p.toJson.text layout)).toList = .ok p.normalized := by
    rw [String.toList_ofList]
    exact ofText_text h layout
  exact ⟨hread .compact, hread .indented, rfl, rfl, fun v hv => Value.normalized_of_isNormal hv,
    by rw [toJson_normalized], by rw [toJson_normalized]⟩

/-- Escapes, an unsigned number that turns signed, and an object whose members are in order
beside names that are not. -/
theorem ofText_toJson_eq_normalized_of_mixed_values :
    let p : Prepared := ⟨"x == \"\x7b:b\x7d\"\n",
      ⟨[("b", .uint 7), ("a\\", .string "é\t\x01"),
        ("c", .json (.object [("k", .array [.null]), ("l", .bool true)]))], by decide⟩⟩
    p.IsPortable ∧
      p.toJson.compact = "\x7b\"raw\":\"x == \\\"\x7b:b\x7d\\\"\\n\"," ++
        "\"values\":\x7b\"b\":7,\"a\\\\\":\"é\\t\\u0001\"," ++
        "\"c\":\x7b\"k\":[null],\"l\":true\x7d\x7d\x7d" ∧
      Prepared.ofText p.toJson.compact.toList = .ok p.normalized := by
  intro p
  have hportable : p.IsPortable := ⟨by decide +kernel, by decide +kernel⟩
  exact ⟨hportable, by decide +kernel, (ofText_toJson_eq_normalized hportable).1⟩

end Prepared

end FilterTemplate
