/-
  FilterTemplate.Proofs.Query.Values

  What a run does not owe to its values. Two rows of calls that differ in their
  values only write the same template, leave the same groups open and are built
  or refused alike: a simulation between their runs, in which the two queries
  agree on everything but the values bound.
-/
import FilterTemplate.Proofs.Query.Parts

namespace FilterTemplate

/-! ## Calls without their values -/

namespace Comparison

/-- The comparison with null for its value. -/
def withoutValue (c : Comparison) : Comparison :=
  { c with value := .null }

end Comparison

namespace Call

mutual

/-- The call with null for each of its values. -/
def withoutValues : Call → Call
  | .compare path op _ => .compare path op .null
  | .search paths _ => .search paths .null
  | .isIn path values => .isIn path (values.map fun _ => .null)
  | .isNotIn path values => .isNotIn path (values.map fun _ => .null)
  | .between path _ _ => .between path .null .null
  | .notBetween path _ _ => .notBetween path .null .null
  | .group calls => .group (withoutValuesOfAll calls)
  | call => call

/-- Calls in a row with null for each of their values. -/
def withoutValuesOfAll : List Call → List Call
  | [] => []
  | call :: calls => withoutValues call :: withoutValuesOfAll calls

end

end Call

/-- The step with null for each of its values. -/
def Step.withoutValues : Step → Step
  | .compare c => .compare c.withoutValue
  | .enclosed connective cs => .enclosed connective (cs.map Comparison.withoutValue)
  | step => step

namespace Call

theorem stepsOfAll_withoutValuesOfAll (calls : List Call) :
    stepsOfAll (withoutValuesOfAll calls) = (stepsOfAll calls).map Step.withoutValues := by
  induction calls using rowInduction with
  | nil => rfl
  | cons call calls hinner ih =>
    rw [withoutValuesOfAll, stepsOfAll, stepsOfAll, List.map_append, ih]
    congr 1
    cases call with
    | group inner => simp [withoutValues, steps, hinner inner rfl, Step.withoutValues]
    | isIn path values =>
      rw [withoutValues, steps, steps, List.map_singleton, Step.withoutValues, comparisons,
        comparisons, List.map_map, List.map_map]
      rfl
    | isNotIn path values =>
      rw [withoutValues, steps, steps, List.map_singleton, Step.withoutValues, comparisons,
        comparisons, List.map_map, List.map_map]
      rfl
    | _ =>
      simp [withoutValues, steps, comparisons, Step.withoutValues, Comparison.withoutValue]

theorem comparisonsOfAll_withoutValuesOfAll (calls : List Call) :
    comparisonsOfAll (withoutValuesOfAll calls) =
      (comparisonsOfAll calls).map Comparison.withoutValue := by
  have hstep : ∀ step : Step,
      step.withoutValues.comparisons = step.comparisons.map Comparison.withoutValue := by
    intro step
    cases step <;> rfl
  rw [← flatMap_comparisons_stepsOfAll, ← flatMap_comparisons_stepsOfAll,
    stepsOfAll_withoutValuesOfAll, List.flatMap_map, List.map_flatMap, funext hstep]

theorem checkedPathsOfAll_withoutValuesOfAll (calls : List Call) :
    checkedPathsOfAll (withoutValuesOfAll calls) = checkedPathsOfAll calls := by
  have hstep : ∀ step : Step, step.withoutValues.checkedPaths = step.checkedPaths := by
    intro step
    cases step <;> rfl
  rw [← flatMap_checkedPaths_stepsOfAll, ← flatMap_checkedPaths_stepsOfAll,
    stepsOfAll_withoutValuesOfAll, List.flatMap_map, funext hstep]

theorem customTextsOfAll_withoutValuesOfAll (calls : List Call) :
    customTextsOfAll (withoutValuesOfAll calls) = customTextsOfAll calls := by
  have hstep : ∀ step : Step, step.withoutValues.customTexts = step.customTexts := by
    intro step
    cases step <;> rfl
  rw [← flatMap_customTexts_stepsOfAll, ← flatMap_customTexts_stepsOfAll,
    stepsOfAll_withoutValuesOfAll, List.flatMap_map, funext hstep]

end Call

/-! ## Parts -/

namespace Comparison

theorem countUses_map_withoutValue (uses : String → Nat) (cs : List Comparison) :
    countUses uses (cs.map withoutValue) = countUses uses cs := by
  induction cs generalizing uses with
  | nil => rfl
  | cons c rest ih => rw [List.map_cons, countUses_cons, ih, countUses_cons]; rfl

theorem partsOfAll_map_withoutValue (glue : List Char) (uses : String → Nat)
    (cs : List Comparison) :
    partsOfAll glue uses (cs.map withoutValue) = partsOfAll glue uses cs := by
  have hrest : ∀ (rest : List Comparison) (uses : String → Nat),
      partsBehind glue uses (rest.map withoutValue) = partsBehind glue uses rest := by
    intro rest
    induction rest with
    | nil => exact fun _ => rfl
    | cons c rest ih => intro uses; rw [List.map_cons, partsBehind, ih, partsBehind]; rfl
  cases cs with
  | nil => rfl
  | cons c rest => rw [List.map_cons, partsOfAll, hrest, partsOfAll]; rfl

end Comparison

theorem Step.partsOfAll_map_withoutValues (uses : String → Nat) (steps : List Step) :
    partsOfAll uses (steps.map withoutValues) = partsOfAll uses steps := by
  induction steps generalizing uses with
  | nil => rfl
  | cons step steps ih =>
    rw [List.map_cons, partsOfAll, partsOfAll, ih]
    cases step with
    | enclosed connective cs =>
      simp [withoutValues, parts, comparisons, Comparison.partsOfAll_map_withoutValue,
        Comparison.countUses_map_withoutValue]
    | _ => rfl

/-! ## Runs -/

/-- The queries agree on all but their values. -/
structure Query.Alike (q r : Query) : Prop where
  template : q.template = r.template
  useCount : q.useCount = r.useCount
  depth : q.depth = r.depth
  unmatchedClose : q.unmatchedClose = r.unmatchedClose

namespace Query.Alike

variable {q r : Query}

theorem refl (q : Query) : Alike q q := ⟨rfl, rfl, rfl, rfl⟩

theorem symm (h : Alike q r) : Alike r q :=
  ⟨h.template.symm, h.useCount.symm, h.depth.symm, h.unmatchedClose.symm⟩

theorem trans {s : Query} (h : Alike q r) (h' : Alike r s) : Alike q s :=
  ⟨h.template.trans h'.template, h.useCount.trans h'.useCount, h.depth.trans h'.depth,
    h.unmatchedClose.trans h'.unmatchedClose⟩

theorem append (h : Alike q r) (text : String) : Alike (q.append text) (r.append text) where
  template := by rw [template_append, template_append, h.template]
  useCount := h.useCount
  depth := h.depth
  unmatchedClose := h.unmatchedClose

theorem compare (h : Alike q r) (c : Comparison) :
    Alike (q.compare c) (r.compare c.withoutValue) where
  template := by rw [template_compare, template_compare, h.template, h.useCount]; rfl
  useCount := by rw [useCount_compare, useCount_compare, h.useCount]; rfl
  depth := h.depth
  unmatchedClose := h.unmatchedClose

theorem compareAll (h : Alike q r) (glue : String) (cs : List Comparison) :
    Alike (q.compareAll glue cs) (r.compareAll glue (cs.map Comparison.withoutValue)) := by
  have hrest : ∀ (rest : List Comparison) {q r : Query}, Alike q r →
      Alike (rest.foldl (fun q c => (q.append glue).compare c) q)
        ((rest.map Comparison.withoutValue).foldl (fun q c => (q.append glue).compare c) r) := by
    intro rest
    induction rest with
    | nil => exact id
    | cons c rest ih => exact fun h => ih ((h.append glue).compare c)
  cases cs with
  | nil => exact h
  | cons c rest => exact hrest rest (h.compare c)

theorem apply (h : Alike q r) (step : Step) :
    Alike (q.apply step) (r.apply step.withoutValues) := by
  cases step with
  | compare c => exact h.compare c
  | enclosed connective cs => exact ((h.append "(").compareAll connective.text cs).append ")"
  | openGroup => exact ⟨congrArg (· ++ "(") h.template, h.useCount, congrArg (· + 1) h.depth,
      h.unmatchedClose⟩
  | closeGroup =>
    -- The place that may be kept is the length of the template, which both share.
    refine ⟨congrArg (· ++ ")") h.template, h.useCount, congrArg (· - 1) h.depth, ?_⟩
    simp only [Query.apply, Step.withoutValues, closeGroup, h.depth, h.unmatchedClose, h.template]
  | _ => exact h.append _

theorem foldl_apply (h : Alike q r) (steps : List Step) :
    Alike (steps.foldl Query.apply q) ((steps.map Step.withoutValues).foldl Query.apply r) := by
  induction steps generalizing q r with
  | nil => exact h
  | cons step steps ih => exact ih (h.apply step)

theorem imbalance? (h : Alike q r) : q.imbalance? = r.imbalance? := by
  rw [Query.imbalance?, Query.imbalance?, h.unmatchedClose, h.depth]

/-- Calls that differ in their values only make queries that are alike. -/
theorem run {calls others : List Call}
    (h : Call.withoutValuesOfAll calls = Call.withoutValuesOfAll others) (q : Query) :
    Alike (Session.run q calls) (Session.run q others) := by
  -- Both are alike to the run of the calls without their values, which is the same.
  have hbare : ∀ calls, Alike (Session.run q calls)
      (Session.run q (Call.withoutValuesOfAll calls)) := by
    intro calls
    rw [Session.run_eq_foldl, Session.run_eq_foldl, Call.stepsOfAll_withoutValuesOfAll]
    exact (refl q).foldl_apply _
  exact (hbare calls).trans (h ▸ (hbare others).symm)

end Query.Alike

end FilterTemplate
