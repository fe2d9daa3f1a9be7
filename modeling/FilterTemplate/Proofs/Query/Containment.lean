/-
  FilterTemplate.Proofs.Query.Containment

  What values can change in a filter: nothing but the inside of quotes. Two
  rows of calls that differ in their values only are rendered to filters that
  become the same text once every quoted part is emptied, and that text is the
  template with an empty pair of quotes for each placeholder. So no quote,
  parenthesis or connective in a value gets out of its literal.
-/
import FilterTemplate.Proofs.Query.Rendering
import FilterTemplate.Proofs.Query.Values
import FilterTemplate.Proofs.Text.Quoting

namespace FilterTemplate

open Comparison (bindings)
open Segment (fillWith)
open Text (IsCollapsed collapseQuoted)

/-- The literal of the value is quoted, closes where it ends and opens no placeholder. -/
structure Value.IsContained (v : Value) : Prop where
  quoted : v.literal.head? = some '\''
  closed : ¬ v.EndsInBackslash
  plain : ¬ v.OpensPlaceholder

instance : DecidablePred Value.IsContained := fun v =>
  decidable_of_iff
    (v.literal.head? = some '\'' ∧ ¬ v.EndsInBackslash ∧ ¬ v.OpensPlaceholder)
    ⟨fun ⟨hquoted, hclosed, hplain⟩ => ⟨hquoted, hclosed, hplain⟩,
      fun h => ⟨h.quoted, h.closed, h.plain⟩⟩

/-- Emptying the quoted parts of a text empties a contained literal in front. -/
theorem Value.IsContained.collapseQuoted_append {v : Value} (h : v.IsContained)
    (t : List Char) : collapseQuoted (v.literal ++ t) = ['\'', '\''] ++ collapseQuoted t := by
  obtain ⟨s, hs⟩ := Option.isSome_iff_exists.1 ((head?_literal_eq_quote_iff v).1 h.quoted)
  have hlast : s.getLast? ≠ some '\\' := fun hlast => h.closed ((getLast?_quotedContent hs).1 hlast)
  rw [literal_eq_quoted hs, Text.collapseQuoted_quoted_append hlast]
  rfl

/-- Emptying the quoted parts of a filled template empties what was filled in. -/
theorem Segment.collapseQuoted_flatMap_fillWith {text : String → List Char}
    {parts : List Segment} (htexts : ∀ content, .text content ∈ parts → IsCollapsed content)
    (hnames : ∀ name, .placeholder name ∈ parts →
      ∃ v : Value, text name = v.literal ∧ v.IsContained) :
    collapseQuoted (parts.flatMap (fillWith text)) =
      parts.flatMap (fillWith fun _ => ['\'', '\'']) := by
  induction parts with
  | nil => rfl
  | cons part parts ih =>
    have ih' := ih (fun content h => htexts content (List.mem_cons_of_mem part h))
      (fun name h => hnames name (List.mem_cons_of_mem part h))
    rw [List.flatMap_cons, List.flatMap_cons]
    cases part with
    | text content => rw [fillWith, htexts content List.mem_cons_self, ih', fillWith]
    | placeholder name =>
      obtain ⟨v, hv, hcontained⟩ := hnames name List.mem_cons_self
      rw [fillWith, hv, hcontained.collapseQuoted_append, ih', fillWith]

namespace Query

variable {calls : List Call}

/-- Every name that a run binds stands for the literal of one of the values. -/
theorem exists_textOf_values_eq {b : String × Value}
    (h : b ∈ bindings (fun _ => 0) (Call.comparisonsOfAll calls)) :
    ∃ c ∈ Call.comparisonsOfAll calls,
      (Session.run .empty calls).values.textOf b.1 = c.value.literal := by
  have hkey : b.1 ∈ (Session.run .empty calls).values.keys := by
    rw [values_run_empty]
    exact Table.mem_keys_extend.2 (.inr (List.mem_map_of_mem h))
  obtain ⟨v, hv⟩ := Option.ne_none_iff_exists'.1 fun hnone => Table.get?_eq_none_iff.1 hnone hkey
  -- A name bound twice holds the later value, which is one of the values too.
  have hentry : (b.1, v) ∈ (Session.run .empty calls).values.entries := by
    exact Table.get?_eq_some_iff_mem.1 hv
  obtain ⟨c, hc, hvalue, -⟩ :=
    Comparison.exists_of_mem_bindings (mem_bindings_of_mem_values hentry)
  exact ⟨c, hc, by rw [Params.textOf, hv, ← hvalue]⟩

/-- A run with contained values is rendered to its template with something in
quotes for each placeholder. -/
theorem collapseQuoted_substitute_run
    (hpaths : ∀ c ∈ Call.comparisonsOfAll calls, IsPlainName c.path)
    (hchecked : ∀ path ∈ Call.checkedPathsOfAll calls, IsPlainName path)
    (hcustom : ∀ text ∈ Call.customTextsOfAll calls, '\x7b' ∉ text.toList ∧ '\'' ∉ text.toList)
    (hvalues : ∀ c ∈ Call.comparisonsOfAll calls, c.value.IsContained) :
    collapseQuoted (substitute (Session.run .empty calls).template
        (some (Session.run .empty calls).values)).toList =
      (Step.partsOfAll (fun _ => 0) (Call.stepsOfAll calls)).flatMap
        (fillWith fun _ => ['\'', '\'']) := by
  have htexts : ∀ t ∈ (Call.stepsOfAll calls).flatMap Step.texts, IsCollapsed t := by
    refine Call.forall_texts (Text.isCollapsed_of_not_mem (by decide))
      (Text.isCollapsed_of_not_mem (by decide)) ?_ ?_ ?_ ?_
    · rintro (_ | _)
      · exact Text.isCollapsed_of_not_mem (by decide +kernel)
      · exact Text.isCollapsed_of_not_mem (by decide +kernel)
    · intro c hc
      exact (Text.isCollapsed_of_not_mem (hpaths c hc).2.2).append
        (Text.isCollapsed_of_not_mem c.operator.isPlainName_token.2.2)
    · intro path hpath
      have hlead := Text.isCollapsed_of_not_mem (hchecked path hpath).2.2
      have hequal : IsCollapsed ['='] := Text.isCollapsed_of_not_mem (by decide)
      have hdiffers : IsCollapsed ['!', '='] := Text.isCollapsed_of_not_mem (by decide)
      exact ⟨hlead.append (hequal.append Text.isCollapsed_quotes),
        hlead.append (hdiffers.append Text.isCollapsed_quotes)⟩
    · exact fun text htext => Text.isCollapsed_of_not_mem (hcustom text htext).2
  rw [substitute, String.toList_ofList, toList_template_run_empty,
    substituteEntries_sources_eq_fillWith (isPlainName_of_mem_keys hpaths)
      (forall_mem_values (P := fun v => ¬ v.OpensPlaceholder) fun c hc => (hvalues c hc).plain)
      (isPlain_of_mem_parts hpaths hchecked fun text htext => (hcustom text htext).1)]
  refine Segment.collapseQuoted_flatMap_fillWith ?_ ?_
  · intro content hpart
    rcases Step.mem_partsOfAll hpart with ⟨t, ht, heq⟩ | ⟨b, -, heq⟩
    · rw [Segment.text.inj heq]
      exact htexts t ht
    · exact absurd heq (by simp)
  · intro name hpart
    rcases Step.mem_partsOfAll hpart with ⟨t, -, heq⟩ | ⟨b, hb, heq⟩
    · exact absurd heq (by simp)
    · rw [Call.flatMap_comparisons_stepsOfAll] at hb
      obtain ⟨c, hc, htext⟩ := exists_textOf_values_eq hb
      rw [Segment.placeholder.inj heq]
      exact ⟨c.value, htext, hvalues c hc⟩

end Query

theorem Call.exists_path_eq {calls others : List Call}
    (h : withoutValuesOfAll calls = withoutValuesOfAll others) {c : Comparison}
    (hc : c ∈ comparisonsOfAll others) : ∃ d ∈ comparisonsOfAll calls, c.path = d.path := by
  have hmap : (comparisonsOfAll calls).map Comparison.withoutValue =
      (comparisonsOfAll others).map Comparison.withoutValue := by
    rw [← comparisonsOfAll_withoutValuesOfAll, h, comparisonsOfAll_withoutValuesOfAll]
  have hmem : c.withoutValue ∈ (comparisonsOfAll calls).map Comparison.withoutValue :=
    hmap ▸ List.mem_map_of_mem hc
  obtain ⟨d, hd, heq⟩ := List.mem_map.1 hmem
  exact ⟨d, hd, (congrArg Comparison.path heq).symm⟩

namespace Query

/-- Values cannot change the structure of a filter. Take calls that are built,
with any two choices of their values: `calls` and `others` are the same but for
the values. If all values are quoted, no string ends in a backslash and no
literal opens a placeholder, then both are rendered, and once the quoted parts
are emptied both filters are the template that both share, with an empty pair
of quotes for each placeholder. -/
theorem collapseQuoted_render_run_eq (calls others : List Call) (p : Prepared)
    (hsame : Call.withoutValuesOfAll calls = Call.withoutValuesOfAll others)
    (hbuild : (Session.run .empty calls).build = .ok p)
    (hpaths : ∀ c ∈ Call.comparisonsOfAll calls, IsPlainName c.path)
    (hchecked : ∀ path ∈ Call.checkedPathsOfAll calls, IsPlainName path)
    (hcustom : ∀ text ∈ Call.customTextsOfAll calls, '\x7b' ∉ text.toList ∧ '\'' ∉ text.toList)
    (hvalues : ∀ c ∈ Call.comparisonsOfAll calls, c.value.IsContained)
    (hothers : ∀ c ∈ Call.comparisonsOfAll others, c.value.IsContained) :
    ∃ out out' parts,
      (Session.run .empty calls).buildWith substitute = .ok out ∧
      (Session.run .empty others).buildWith substitute = .ok out' ∧
      collapseQuoted out.toList = collapseQuoted out'.toList ∧
      (∀ part ∈ parts, part.IsPlain) ∧
      (Session.run .empty calls).template.toList = Segment.sources parts ∧
      (Session.run .empty others).template.toList = Segment.sources parts ∧
      collapseQuoted out.toList = parts.flatMap (fillWith fun _ => ['\'', '\'']) := by
  have halike := Alike.run hsame .empty
  have hbalanced := (build_eq_ok_iff.1 hbuild).1
  have hparts : Step.partsOfAll (fun _ => 0) (Call.stepsOfAll others) =
      Step.partsOfAll (fun _ => 0) (Call.stepsOfAll calls) := by
    rw [← Step.partsOfAll_map_withoutValues, ← Call.stepsOfAll_withoutValuesOfAll, ← hsame,
      Call.stepsOfAll_withoutValuesOfAll, Step.partsOfAll_map_withoutValues]
  have hfilled := collapseQuoted_substitute_run hpaths hchecked hcustom hvalues
  have hfilled' : collapseQuoted (substitute (Session.run .empty others).template
      (some (Session.run .empty others).values)).toList =
        (Step.partsOfAll (fun _ => 0) (Call.stepsOfAll calls)).flatMap
          (fillWith fun _ => ['\'', '\'']) := by
    rw [← hparts]
    -- Paths and texts are those of `calls`, so what is asked of them holds here too.
    refine collapseQuoted_substitute_run ?_ ?_ ?_ hothers
    · intro c hc
      obtain ⟨d, hd, hpath⟩ := Call.exists_path_eq hsame hc
      exact hpath ▸ hpaths d hd
    · rwa [← Call.checkedPathsOfAll_withoutValuesOfAll, ← hsame,
        Call.checkedPathsOfAll_withoutValuesOfAll]
    · rwa [← Call.customTextsOfAll_withoutValuesOfAll, ← hsame,
        Call.customTextsOfAll_withoutValuesOfAll]
  refine ⟨_, _, Step.partsOfAll (fun _ => 0) (Call.stepsOfAll calls),
    buildWith_of_imbalance?_eq_none hbalanced substitute,
    buildWith_of_imbalance?_eq_none (halike.imbalance?.symm.trans hbalanced) substitute,
    hfilled.trans hfilled'.symm,
    isPlain_of_mem_parts hpaths hchecked fun text htext => (hcustom text htext).1,
    toList_template_run_empty calls, ?_, hfilled⟩
  rw [toList_template_run_empty, hparts]

/-- Two names, one of which tries to end its quotes, its group and the
comparison, and two lists of values, one with quotes in JSON. -/
theorem collapseQuoted_render_run_eq_of_quotes_in_values :
    let filter (name : Value) (places : List Value) : List Call :=
      [.equal "name" name, .and, .group [.isIn "place" places, .or, .isNull "place"], .and,
        .custom "seen=true"]
    let calls := filter (.string "x') || (1='1") [.string "a", .string "b'"]
    let others := filter (.string "Ann")
      [.json (.array [.string "c' && d", .null]),
        .timestamp ⟨0, 0, by decide, by decide, by decide⟩]
    let out := "name='x\\') || (1=\\'1' && ((place='a' || place='b\\'') || place='') && seen=true"
    let out' := "name='Ann' && ((place='[\"c\\' && d\",null]' || " ++
      "place='1970-01-01 00:00:00.000Z') || place='') && seen=true"
    (Session.run .empty calls).buildWith substitute = .ok out ∧
      (Session.run .empty others).buildWith substitute = .ok out' ∧
      collapseQuoted out.toList = collapseQuoted out'.toList := by
  intro filter calls others out out'
  have hbuild : (Session.run .empty calls).build =
      .ok ⟨(Session.run .empty calls).template, (Session.run .empty calls).values⟩ :=
    build_eq_ok_iff.2 ⟨by decide +kernel, rfl⟩
  have hout : (Session.run .empty calls).buildWith substitute = .ok out := by decide +kernel
  have hout' : (Session.run .empty others).buildWith substitute = .ok out' := by decide +kernel
  obtain ⟨text, text', -, htext, htext', hcollapsed, -⟩ :=
    collapseQuoted_render_run_eq calls others _ rfl hbuild (by decide +kernel)
      (by decide +kernel) (by decide +kernel) (by decide +kernel) (by decide +kernel)
  rw [hout] at htext
  rw [hout'] at htext'
  rw [← Except.ok.inj htext, ← Except.ok.inj htext'] at hcollapsed
  exact ⟨hout, hout', hcollapsed⟩

end Query

end FilterTemplate
