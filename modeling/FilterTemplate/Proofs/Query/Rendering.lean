/-
  FilterTemplate.Proofs.Query.Rendering

  Rendering what was built is printing the calls. A run writes a template with
  generated names and binds the values to them; filling the template brings
  every value back to its own comparison, so that the result is the text of the
  calls with their values in place.
-/
import FilterTemplate.Proofs.Query.Names
import FilterTemplate.Proofs.Query.Parts

namespace FilterTemplate

open Comparison (bindings)

theorem Operator.isPlainName_token (op : Operator) : IsPlainName op.token := by
  cases op <;> decide +kernel

namespace Query

variable {calls : List Call}

theorem mem_bindings_of_mem_values {e : String × Value}
    (h : e ∈ (Session.run .empty calls).values.entries) :
    e ∈ bindings (fun _ => 0) (Call.comparisonsOfAll calls) := by
  rw [values_run_empty] at h
  exact (Table.mem_entries_extend h).resolve_left List.not_mem_nil

theorem isPlainName_of_mem_keys
    (hpaths : ∀ c ∈ Call.comparisonsOfAll calls, IsPlainName c.path) :
    ∀ key ∈ (Session.run .empty calls).values.keys, IsPlainName key := by
  intro key hkey
  obtain ⟨e, he, rfl⟩ := List.mem_map.1 hkey
  obtain ⟨c, hc, -, count, -, hname⟩ :=
    Comparison.exists_of_mem_bindings (mem_bindings_of_mem_values he)
  rw [hname]
  exact isPlainName_paramName (hpaths c hc) count

theorem forall_mem_values {P : Value → Prop}
    (h : ∀ c ∈ Call.comparisonsOfAll calls, P c.value) :
    ∀ e ∈ (Session.run .empty calls).values.entries, P e.2 := by
  intro e he
  obtain ⟨c, hc, hvalue, -⟩ := Comparison.exists_of_mem_bindings (mem_bindings_of_mem_values he)
  rw [hvalue]
  exact h c hc

theorem isPlain_of_mem_parts (hpaths : ∀ c ∈ Call.comparisonsOfAll calls, IsPlainName c.path)
    (hchecked : ∀ path ∈ Call.checkedPathsOfAll calls, IsPlainName path)
    (hcustom : ∀ text ∈ Call.customTextsOfAll calls, '\x7b' ∉ text.toList) :
    ∀ part ∈ Step.partsOfAll (fun _ => 0) (Call.stepsOfAll calls), part.IsPlain := by
  have htexts : ∀ t ∈ (Call.stepsOfAll calls).flatMap Step.texts, '\x7b' ∉ t := by
    refine Call.forall_texts (by decide) (by decide) ?_ ?_ ?_ hcustom
    · rintro (_ | _) <;> decide +kernel
    · intro c hc
      rw [Comparison.lead, List.mem_append, not_or]
      exact ⟨(hpaths c hc).1, c.operator.isPlainName_token.1⟩
    · intro path hpath
      simp only [List.mem_append, not_or]
      exact ⟨⟨(hchecked path hpath).1, by decide +kernel⟩,
        ⟨(hchecked path hpath).1, by decide +kernel⟩⟩
  intro part hpart
  rcases Step.mem_partsOfAll hpart with ⟨t, ht, rfl⟩ | ⟨b, hb, rfl⟩
  · exact htexts t ht
  · rw [Call.flatMap_comparisons_stepsOfAll] at hb
    obtain ⟨c, hc, -, count, -, hname⟩ := Comparison.exists_of_mem_bindings hb
    have hplain : IsPlainName b.1 := hname ▸ isPlainName_paramName (hpaths c hc) count
    exact ⟨hplain.1, hplain.2.1⟩

/-- Where names are distinct, each stands for the value it was bound to. -/
theorem textOf_values_of_nodup
    (h : ((bindings (fun _ => 0) (Call.comparisonsOfAll calls)).map Prod.fst).Nodup) :
    ∀ b ∈ bindings (fun _ => 0) (Call.comparisonsOfAll calls),
      (Session.run .empty calls).values.textOf b.1 = b.2.literal := by
  intro b hb
  have hget : (Session.run .empty calls).values.get? b.1 = some b.2 := by
    rw [values_run_empty, Table.get?_eq_some_iff_mem, Table.entries_ofList_of_nodup h]
    exact hb
  rw [Params.textOf, hget]

/-- Rendering a run gives the text of its calls with every value in place: each
comparison as path, operator and the literal of its own value. Paths have no
braces and quotes, no path is another with digits behind it, no text opens a
brace and no literal opens a placeholder. Nothing else is asked of the calls,
neither their order nor their number or nesting. -/
theorem render_run_eq_inlineAll (calls : List Call) (p : Prepared)
    (hbuild : (Session.run .empty calls).build = .ok p)
    (hpaths : ∀ c ∈ Call.comparisonsOfAll calls, IsPlainName c.path)
    (hchecked : ∀ path ∈ Call.checkedPathsOfAll calls, IsPlainName path)
    (hcustom : ∀ text ∈ Call.customTextsOfAll calls, '\x7b' ∉ text.toList)
    (happart : ∀ c ∈ Call.comparisonsOfAll calls, ∀ d ∈ Call.comparisonsOfAll calls,
      ¬ DigitsBehind c.path d.path)
    (hvalues : ∀ c ∈ Call.comparisonsOfAll calls, ¬ c.value.OpensPlaceholder) :
    (Session.run .empty calls).buildWith substitute =
        .ok (String.ofList (Call.inlineAll calls)) ∧
      p.render = String.ofList (Call.inlineAll calls) := by
  obtain ⟨hbalanced, rfl⟩ := build_eq_ok_iff.1 hbuild
  have hpathsApart : PathsApart (Call.comparisonsOfAll calls) :=
    fun c hc d hd digits hne _ hdigits heq => happart c hc d hd ⟨digits, hne, hdigits, heq⟩
  -- No name is bound twice, so each keeps the value of its own comparison.
  have hown := textOf_values_of_nodup (nodup_names_of_pathsApart hpathsApart _)
  have hfill : substitute (Session.run .empty calls).template
      (some (Session.run .empty calls).values) = String.ofList (Call.inlineAll calls) := by
    rw [substitute, toList_template_run_empty,
      substituteEntries_sources_eq_fillWith (isPlainName_of_mem_keys hpaths)
        (forall_mem_values (P := fun v => ¬ v.OpensPlaceholder) hvalues)
        (isPlain_of_mem_parts hpaths hchecked hcustom),
      Step.flatMap_fillWith_partsOfAll (by rwa [Call.flatMap_comparisons_stepsOfAll]),
      Call.flatMap_inline_stepsOfAll]
  exact ⟨(buildWith_of_imbalance?_eq_none hbalanced substitute).trans (congrArg _ hfill), hfill⟩

/-- A chain with a group, an open group, composites, a null check and a custom
text, with a repeated path and a quote in a value. -/
theorem render_run_eq_inlineAll_of_mixed_calls :
    let calls : List Call :=
      [.equal "name" (.string "O'Brien"), .and, .openGroup, .notEqual "age" (.int 20), .or,
        .notEqual "age" (.int 30), .closeGroup, .and,
        .group [.search ["title", "", "body"] (.string "x"), .or, .isNull "city"], .and,
        .isIn "age" [.uint 1, .boolean true], .or, .custom "a \x7d b"]
    let text := "name='O\\'Brien' && (age!=20 || age!=30) && " ++
      "((title~'x' || body~'x') || city='') && (age=1 || age=true) || a \x7d b"
    (Session.run .empty calls).buildWith substitute = .ok text ∧
      ∃ p, (Session.run .empty calls).build = .ok p ∧ p.render = text := by
  intro calls text
  have hbuild : (Session.run .empty calls).build =
      .ok ⟨(Session.run .empty calls).template, (Session.run .empty calls).values⟩ :=
    build_eq_ok_iff.2 ⟨by decide +kernel, rfl⟩
  have hprinted : String.ofList (Call.inlineAll calls) = text := by decide +kernel
  obtain ⟨hwith, hrender⟩ := render_run_eq_inlineAll calls _ hbuild (by decide +kernel)
    (by decide +kernel) (by decide +kernel) (by decide +kernel) (by decide +kernel)
  exact ⟨hprinted ▸ hwith, _, hbuild, hprinted ▸ hrender⟩

end Query

end FilterTemplate
