/-
  FilterTemplate.Proofs.Query.Reading

  Templates are uniquely readable. The parts that a step writes spell the marks
  of the step, and steps at the right stages leave marks at the right stages.
  So the marks of calls in order are read off their template, and calls whose
  templates agree have the same marks.
-/
import FilterTemplate.Proofs.Query.Marks
import FilterTemplate.Proofs.Query.Names
import FilterTemplate.Proofs.Query.Parts
import FilterTemplate.Proofs.Query.Stages

namespace FilterTemplate

open Mark (Spells SpellsAll connected)
open Segment (sources)

/-- The mark of a connective. -/
def Connective.mark : Connective → Mark
  | .and => .and
  | .or => .or

/-- The marks that a step leaves. -/
def Step.outline : Step → List Mark
  | .compare c => [.compared c.path c.operator]
  | .enclosed connective cs => Mark.enclosed connective.mark cs
  | .isNull path => [.isNull path]
  | .isNotNull path => [.isNotNull path]
  | .custom text => [.custom text]
  | .connect connective => [connective.mark]
  | .openGroup => [.opened]
  | .closeGroup => [.closed]

theorem Call.flatMap_outline_stepsOfAll (calls : List Call) :
    (stepsOfAll calls).flatMap Step.outline = outlineAll calls := by
  refine flatMap_stepsOfAll rfl (fun _ _ => rfl) (fun _ => rfl) ?_ calls
  intro call hcall
  cases call with
  | group inner => exact absurd rfl (hcall inner)
  | _ => simp [steps, outline, Step.outline, Connective.mark]

/-! ## Stages of marks -/

theorem Mark.foldlM_next_connected (connective : Connective) {cs : List Comparison}
    (h : cs ≠ []) :
    (connected connective.mark cs).foldlM next .condition = some .complete := by
  -- Each connective makes a condition due, and the comparison behind it completes it.
  have hrest : ∀ rest : List Comparison,
      (rest.flatMap fun c => [connective.mark, .compared c.path c.operator]).foldlM next
        .complete = some .complete := by
    intro rest
    induction rest with
    | nil => rfl
    | cons c rest ih =>
      cases connective with
      | and => exact ih
      | or => exact ih
  cases cs with
  | nil => exact absurd rfl h
  | cons c rest => exact hrest rest

theorem Mark.foldlM_next_enclosed (connective : Connective) (cs : List Comparison) :
    (enclosed connective.mark cs).foldlM next .condition = some .complete := by
  by_cases hcs : cs = []
  · rw [hcs]
    rfl
  · have hinside := foldlM_next_connected connective hcs
    rw [enclosed, if_neg (by simpa using hcs), List.cons_append, List.foldlM_cons, next,
      Option.bind_eq_bind, Option.bind_some, List.foldlM_append, hinside]
    rfl

theorem Step.foldlM_next_outline {stage stage' : Stage} {step : Step}
    (h : stage.next step = some stage') :
    step.outline.foldlM Mark.next stage = some stage' := by
  cases stage with
  | condition =>
    cases step with
    | enclosed connective cs =>
      cases h
      exact Mark.foldlM_next_enclosed connective cs
    | connect connective => exact absurd h (by simp [Stage.next])
    | closeGroup => exact absurd h (by simp [Stage.next])
    | _ => exact h
  | complete =>
    cases step with
    | connect connective =>
      cases connective with
      | and => exact h
      | or => exact h
    | closeGroup => exact h
    | _ => exact absurd h (by simp [Stage.next])

theorem Step.foldlM_next_flatMap_outline {stage stage' : Stage} {steps : List Step}
    (h : steps.foldlM Stage.next stage = some stage') :
    (steps.flatMap outline).foldlM Mark.next stage = some stage' := by
  induction steps generalizing stage with
  | nil => exact h
  | cons step steps ih =>
    rw [List.foldlM_cons, Option.bind_eq_bind] at h
    obtain ⟨between, hstep, hrest⟩ := Option.bind_eq_some_iff.1 h
    rw [List.flatMap_cons, List.foldlM_append, foldlM_next_outline hstep]
    exact ih hrest

/-- Calls that come at the right stages leave marks that do. -/
theorem Call.foldlM_next_outlineAll {stage stage' : Stage} {index : Nat} {calls : List Call}
    (h : checkAll stage index calls = .ok stage') :
    (outlineAll calls).foldlM Mark.next stage = some stage' := by
  rw [← flatMap_outline_stepsOfAll]
  exact Step.foldlM_next_flatMap_outline (foldlM_next_stepsOfAll h)

/-! ## What a template spells -/

namespace Comparison

theorem spellsAll_parts {c : Comparison} (h : IsPlainPath c.path) (uses : String → Nat) :
    SpellsAll [.compared c.path c.operator] (sources (c.parts uses)) := by
  -- Digits are behind the path in the name, so a closing brace would be one of the path.
  have hclosing : '\x7d' ∉ c.path.toList := fun hm => h.2 _ hm (by decide)
  have hname := Query.not_mem_paramName hclosing (by decide) (uses c.path + 1)
  have hspells := (Spells.compared c.operator h hname).all
  simpa [parts, lead, Segment.source] using hspells

theorem spellsAll_partsOfAll (connective : Connective) {uses : String → Nat}
    {cs : List Comparison} (h : ∀ c ∈ cs, IsPlainPath c.path) :
    SpellsAll (connected connective.mark cs)
      (sources (partsOfAll connective.text.toList uses cs)) := by
  have hglue : SpellsAll [connective.mark] connective.text.toList := by
    cases connective with
    | and => exact Spells.and.all
    | or => exact Spells.or.all
  have hrest : ∀ (rest : List Comparison) (uses : String → Nat),
      (∀ c ∈ rest, IsPlainPath c.path) →
        SpellsAll (rest.flatMap fun c => [connective.mark, .compared c.path c.operator])
          (sources (partsBehind connective.text.toList uses rest)) := by
    intro rest
    induction rest with
    | nil => exact fun _ _ => .nil
    | cons c rest ih =>
      intro uses h
      obtain ⟨hpath, hbehind⟩ := List.forall_mem_cons.1 h
      rw [List.flatMap_cons, partsBehind, Segment.sources_append, Segment.sources_cons,
        List.append_assoc]
      exact hglue.append ((spellsAll_parts hpath uses).append (ih _ hbehind))
  cases cs with
  | nil => exact .nil
  | cons c rest =>
    obtain ⟨hpath, hbehind⟩ := List.forall_mem_cons.1 h
    rw [partsOfAll, Segment.sources_append]
    exact (spellsAll_parts hpath uses).append (hrest rest _ hbehind)

end Comparison

namespace Step

/-- The parts of a step spell its marks. -/
theorem spellsAll_parts {step : Step} (uses : String → Nat) (hcustom : step.customTexts = [])
    (hcompared : ∀ c ∈ step.comparisons, IsPlainPath c.path)
    (hchecked : ∀ path ∈ step.checkedPaths, IsPlainPath path) :
    SpellsAll step.outline (sources (step.parts uses)) := by
  cases step with
  | compare c => exact Comparison.spellsAll_parts (hcompared c List.mem_cons_self) uses
  | enclosed connective cs =>
    rw [outline, Mark.enclosed, parts]
    by_cases hcs : cs = []
    · -- Nothing stands between the parentheses, so they are one mark.
      rw [hcs]
      exact Spells.empty.all
    · rw [if_neg (by simpa using hcs), Segment.sources_append, Segment.sources_cons]
      have hinside : SpellsAll (connected connective.mark cs)
          (sources (Comparison.partsOfAll connective.text.toList uses cs)) :=
        Comparison.spellsAll_partsOfAll connective hcompared
      exact (Spells.opened.all.append hinside).append Spells.closed.all
  | isNull path =>
    have hspells := (Spells.isNull (hchecked path List.mem_cons_self)).all
    rwa [parts, Segment.sources_cons, Segment.sources_nil, List.append_nil]
  | isNotNull path =>
    have hspells := (Spells.isNotNull (hchecked path List.mem_cons_self)).all
    rwa [parts, Segment.sources_cons, Segment.sources_nil, List.append_nil]
  | custom text => exact absurd hcustom (by simp [customTexts])
  | connect connective =>
    cases connective with
    | and => exact Spells.and.all
    | or => exact Spells.or.all
  | openGroup => exact Spells.opened.all
  | closeGroup => exact Spells.closed.all

theorem spellsAll_partsOfAll {uses : String → Nat} {steps : List Step}
    (hcustom : steps.flatMap customTexts = [])
    (hcompared : ∀ c ∈ steps.flatMap comparisons, IsPlainPath c.path)
    (hchecked : ∀ path ∈ steps.flatMap checkedPaths, IsPlainPath path) :
    SpellsAll (steps.flatMap outline) (sources (partsOfAll uses steps)) := by
  induction steps generalizing uses with
  | nil => exact .nil
  | cons step steps ih =>
    rw [List.flatMap_cons] at hcustom hcompared hchecked
    obtain ⟨hcustomStep, hcustomRest⟩ := List.append_eq_nil_iff.1 hcustom
    obtain ⟨hcomparedStep, hcomparedRest⟩ := List.forall_mem_append.1 hcompared
    obtain ⟨hcheckedStep, hcheckedRest⟩ := List.forall_mem_append.1 hchecked
    rw [List.flatMap_cons, partsOfAll, Segment.sources_append]
    exact (spellsAll_parts uses hcustomStep hcomparedStep hcheckedStep).append
      (ih hcustomRest hcomparedRest hcheckedRest)

end Step

namespace Query

/-- The marks of calls in order are read off the template that they write. -/
theorem readAll_template_run_empty {calls : List Call} {stage : Stage}
    (hstages : Call.checkAll .condition 0 calls = .ok stage)
    (hcustom : Call.customTextsOfAll calls = [])
    (hcompared : ∀ c ∈ Call.comparisonsOfAll calls, IsPlainPath c.path)
    (hchecked : ∀ path ∈ Call.checkedPathsOfAll calls, IsPlainPath path) :
    Mark.readAll (Session.run .empty calls).template.toList = Call.outlineAll calls := by
  rw [← Call.flatMap_customTexts_stepsOfAll] at hcustom
  rw [← Call.flatMap_comparisons_stepsOfAll] at hcompared
  rw [← Call.flatMap_checkedPaths_stepsOfAll] at hchecked
  have hspells : SpellsAll ((Call.stepsOfAll calls).flatMap Step.outline)
      (sources (Step.partsOfAll (fun _ => 0) (Call.stepsOfAll calls))) :=
    Step.spellsAll_partsOfAll hcustom hcompared hchecked
  rw [Call.flatMap_outline_stepsOfAll, ← toList_template_run_empty] at hspells
  exact Mark.readAll_of_spellsAll hspells (Call.foldlM_next_outlineAll hstages)

/-- Templates are uniquely readable. Take two rows of calls in order, each ending
at any stage and leaving any groups open or closing some that are not, that
write no texts as they are and whose paths are plain. If they write the same
template from nothing, then they leave the same marks: the same parentheses,
connectives and null checks and the same operators on the same paths, in the
same order. -/
theorem outlineAll_eq_of_template_eq (xs ys : List Call) (stageX stageY : Stage)
    (hxs : Call.checkAll .condition 0 xs = .ok stageX)
    (hys : Call.checkAll .condition 0 ys = .ok stageY)
    (hcustom : Call.customTextsOfAll xs = [] ∧ Call.customTextsOfAll ys = [])
    (hcompared : ∀ c ∈ Call.comparisonsOfAll xs ++ Call.comparisonsOfAll ys, IsPlainPath c.path)
    (hchecked : ∀ path ∈ Call.checkedPathsOfAll xs ++ Call.checkedPathsOfAll ys,
      IsPlainPath path)
    (hsame : (Session.run .empty xs).template = (Session.run .empty ys).template) :
    Call.outlineAll xs = Call.outlineAll ys := by
  obtain ⟨hcomparedX, hcomparedY⟩ := List.forall_mem_append.1 hcompared
  obtain ⟨hcheckedX, hcheckedY⟩ := List.forall_mem_append.1 hchecked
  calc Call.outlineAll xs
      = Mark.readAll (Session.run .empty xs).template.toList :=
        (readAll_template_run_empty hxs hcustom.1 hcomparedX hcheckedX).symm
    _ = Mark.readAll (Session.run .empty ys).template.toList := by rw [hsame]
    _ = Call.outlineAll ys := readAll_template_run_empty hys hcustom.2 hcomparedY hcheckedY

/-- A group and lists of comparisons against the same written out call by call,
with an empty list, a parenthesis too many and one that stays open. -/
theorem outlineAll_eq_of_template_eq_written_out :
    let xs : List Call :=
      [.search ["a", "", "b"] (.string "x"), .and, .group [.isIn "a" [.int 1, .int 2], .or,
        .isNull "c"], .closeGroup, .or, .isIn "c" [], .build, .and, .openGroup]
    let ys : List Call :=
      [.openGroup, .like "a" (.int 5), .or, .like "b" (.int 6), .closeGroup, .and, .openGroup,
        .openGroup, .equal "a" (.int 7), .or, .equal "a" (.int 8), .closeGroup, .or, .isNull "c",
        .closeGroup, .closeGroup, .or, .isNotIn "d" [], .and, .openGroup]
    (Session.run .empty xs).template = (Session.run .empty ys).template ∧
      Call.outlineAll xs = Call.outlineAll ys := by
  intro xs ys
  have hsame : (Session.run .empty xs).template = (Session.run .empty ys).template := by
    decide +kernel
  exact ⟨hsame, outlineAll_eq_of_template_eq xs ys .condition .condition (by decide +kernel)
    (by decide +kernel) (by decide +kernel) (by decide +kernel) (by decide +kernel) hsame⟩

end Query

end FilterTemplate
