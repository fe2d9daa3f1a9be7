/-
  FilterTemplate.Proofs.Query.Nesting

  The groups of a query and the parentheses of its template. A query counts
  its groups and knows nothing of the parentheses in its texts; where these are
  balanced, the count is what reading the template gives.
-/
import FilterTemplate.Proofs.Query.Atoms
import FilterTemplate.Proofs.Query.Parts
import FilterTemplate.Proofs.Text.Parentheses

namespace FilterTemplate

open Segment (sources)
open Text (IsBalanced openAfter openAfter_append openAfter_append_of_isBalanced)

/-! ## Counting groups -/

/-- The number of groups open after a step, if it closes none that is not open. -/
def Step.groupsAfter : (n : Nat) → Step → Option Nat
  | n, .openGroup => some (n + 1)
  | n, .closeGroup => if n = 0 then none else some (n - 1)
  | n, _ => some n

namespace Query

/-- The number of groups open, if none was closed that was not open. -/
def openGroups? (q : Query) : Option Nat :=
  if q.unmatchedClose.isSome then none else some q.depth

theorem build_eq_ok_iff_openGroups? {q : Query} :
    (∃ p, q.build = .ok p) ↔ q.openGroups? = some 0 := by
  simp only [build_eq_ok_iff, imbalance?, openGroups?]
  cases q.unmatchedClose with
  | none => simp
  | some offset => simp

theorem openGroups?_compareAll (glue : String) (q : Query) (cs : List Comparison) :
    (q.compareAll glue cs).openGroups? = q.openGroups? :=
  compareAll_eq_self (f := openGroups?) (fun _ _ => rfl) (fun _ _ => rfl) glue q cs

theorem openGroups?_apply (q : Query) (step : Step) :
    (q.apply step).openGroups? = q.openGroups?.bind (Step.groupsAfter · step) := by
  cases step with
  | enclosed connective cs =>
    refine (openGroups?_compareAll connective.text (q.append "(") cs).trans ?_
    exact (Option.bind_fun_some q.openGroups?).symm
  | openGroup =>
    cases h : q.unmatchedClose with
    | none => simp [openGroups?, apply, openGroup, Step.groupsAfter, h]
    | some offset => simp [openGroups?, apply, openGroup, h]
  | closeGroup =>
    -- A close without an open group leaves a mark, and a mark once left stays.
    cases h : q.unmatchedClose with
    | none =>
      by_cases hdepth : q.depth = 0
      · simp [openGroups?, apply, closeGroup, Step.groupsAfter, h, hdepth]
      · simp [openGroups?, apply, closeGroup, Step.groupsAfter, h, hdepth]
    | some offset => simp [openGroups?, apply, closeGroup, h]
  | _ => exact (Option.bind_fun_some q.openGroups?).symm

theorem openGroups?_foldl_apply (q : Query) (steps : List Step) :
    (steps.foldl apply q).openGroups? =
      q.openGroups?.bind fun n => steps.foldlM Step.groupsAfter n := by
  induction steps generalizing q with
  | nil => exact (Option.bind_fun_some q.openGroups?).symm
  | cons step steps ih =>
    rw [List.foldl_cons, ih, openGroups?_apply, Option.bind_assoc]
    rfl

theorem openGroups?_run_empty (calls : List Call) :
    (Session.run .empty calls).openGroups? =
      (Call.stepsOfAll calls).foldlM Step.groupsAfter 0 := by
  rw [Session.run_eq_foldl, openGroups?_foldl_apply]
  rfl

end Query

/-! ## Reading the template -/

theorem Connective.isBalanced_text (connective : Connective) :
    IsBalanced connective.text.toList := by
  cases connective with
  | and => exact Text.isBalanced_of_not_mem (by decide) (by decide)
  | or => exact Text.isBalanced_of_not_mem (by decide) (by decide)

mutual

/-- A filter over balanced atoms is balanced. -/
theorem IsFilter.isBalanced {atom : List Char → Prop} (hatom : ∀ s, atom s → IsBalanced s)
    {s : List Char} : IsFilter atom s → IsBalanced s
  | .condition h => h.isBalanced hatom
  | .and hs ht =>
    ((hs.isBalanced hatom).append (Connective.isBalanced_text .and)).append (ht.isBalanced hatom)
  | .or hs ht =>
    ((hs.isBalanced hatom).append (Connective.isBalanced_text .or)).append (ht.isBalanced hatom)

theorem IsCondition.isBalanced {atom : List Char → Prop} (hatom : ∀ s, atom s → IsBalanced s)
    {s : List Char} : IsCondition atom s → IsBalanced s
  | .atom h => hatom _ h
  | .group h => (h.isBalanced hatom).enclosed
  | .empty => (Text.isBalanced_of_not_mem List.not_mem_nil List.not_mem_nil).enclosed

end

/-! ## Steps that write conditions -/

theorem IsFilter.connect {atom : List Char → Prop} (connective : Connective) {s t : List Char}
    (hs : IsFilter atom s) (ht : IsCondition atom t) :
    IsFilter atom (s ++ connective.text.toList ++ t) := by
  cases connective with
  | and => exact .and hs ht
  | or => exact .or hs ht

namespace Comparison

theorem sources_parts (uses : String → Nat) (c : Comparison) :
    sources (c.parts uses) =
      (Query.comparisonText c.path c.operator (uses c.path + 1)).toList := by
  rw [Query.comparisonText, parts, lead]
  simp [Segment.source]

theorem isFilter_sources_partsBehind {atom : List Char → Prop} (connective : Connective)
    {uses : String → Nat} {cs : List Comparison} {s : List Char} (hs : IsFilter atom s)
    (hatoms : ∀ text ∈ atoms uses cs, atom text.toList) :
    IsFilter atom (s ++ sources (partsBehind connective.text.toList uses cs)) := by
  induction cs generalizing uses s with
  | nil => rwa [partsBehind, Segment.sources_nil, List.append_nil]
  | cons c rest ih =>
    obtain ⟨hc, hrest⟩ := List.forall_mem_cons.1 hatoms
    -- With the first comparison behind it, the filter is the one in front of the rest.
    have hfirst := hs.connect connective (.atom hc)
    rw [partsBehind, List.cons_append, Segment.sources_cons, Segment.sources_append, sources_parts]
    rw [← List.append_assoc, ← List.append_assoc]
    exact ih hfirst hrest

/-- Comparisons in parentheses are a condition, even if there are none. -/
theorem isCondition_enclosed {atom : List Char → Prop} (connective : Connective)
    {uses : String → Nat} {cs : List Comparison}
    (hatoms : ∀ text ∈ atoms uses cs, atom text.toList) :
    IsCondition atom ('(' :: sources (partsOfAll connective.text.toList uses cs) ++ [')']) := by
  cases cs with
  | nil => exact .empty
  | cons c rest =>
    obtain ⟨hc, hrest⟩ := List.forall_mem_cons.1 hatoms
    have hfirst : IsFilter atom (sources (c.parts uses)) :=
      .condition (.atom (sources_parts uses c ▸ hc))
    rw [partsOfAll, Segment.sources_append]
    exact .group (isFilter_sources_partsBehind connective hfirst hrest)

end Comparison

namespace Step

/-- The step writes neither a connective nor one side of a group. -/
def writesCondition : Step → Bool
  | .connect _ => false
  | .openGroup => false
  | .closeGroup => false
  | _ => true

theorem isCondition_sources_parts {atom : List Char → Prop} {uses : String → Nat} {step : Step}
    (hstep : step.writesCondition = true) (hatoms : ∀ text ∈ step.atoms uses, atom text.toList) :
    IsCondition atom (sources (step.parts uses)) := by
  have hsingle : ∀ text : String, step.atoms uses = [text] →
      sources (step.parts uses) = text.toList → IsCondition atom (sources (step.parts uses)) := by
    intro text hatom hparts
    rw [hparts]
    exact .atom (hatoms text (hatom ▸ List.mem_cons_self))
  cases step with
  | compare c => exact hsingle _ rfl (Comparison.sources_parts uses c)
  | enclosed connective cs =>
    have hwhole := Comparison.isCondition_enclosed connective hatoms
    simpa [parts, Segment.source] using hwhole
  | isNull path => exact hsingle (path ++ "=''") rfl (by simp [parts, Segment.source])
  | isNotNull path => exact hsingle (path ++ "!=''") rfl (by simp [parts, Segment.source])
  | custom text => exact hsingle text rfl (by simp [parts, Segment.source])
  | connect connective => exact absurd hstep Bool.false_ne_true
  | openGroup => exact absurd hstep Bool.false_ne_true
  | closeGroup => exact absurd hstep Bool.false_ne_true

theorem openAfter_sources_parts {uses : String → Nat} {step : Step}
    (hatoms : ∀ text ∈ step.atoms uses, IsBalanced text.toList) (n : Nat) :
    openAfter n (sources (step.parts uses)) = groupsAfter n step := by
  cases step with
  | connect connective =>
    have hparts : sources (parts uses (.connect connective)) = connective.text.toList := by
      simp [parts, Segment.source]
    rw [hparts]
    exact connective.isBalanced_text n
  | openGroup => rfl
  | closeGroup => cases n <;> rfl
  | _ =>
    have hcondition := isCondition_sources_parts rfl hatoms
    exact hcondition.isBalanced (fun _ h => h) n

/-- Reading what steps write counts the groups that they open and close. -/
theorem openAfter_sources_partsOfAll {uses : String → Nat} {steps : List Step}
    (hatoms : ∀ text ∈ atomsOfAll uses steps, IsBalanced text.toList) (n : Nat) :
    openAfter n (sources (partsOfAll uses steps)) = steps.foldlM groupsAfter n := by
  induction steps generalizing uses n with
  | nil => rfl
  | cons step steps ih =>
    obtain ⟨hstep, hsteps⟩ := List.forall_mem_append.1 hatoms
    rw [partsOfAll, Segment.sources_append, openAfter_append, openAfter_sources_parts hstep,
      List.foldlM_cons]
    exact congrArg _ (funext fun m => ih hsteps m)

end Step

/-- The count of groups is what reading the template gives, where the atoms are
balanced. -/
theorem Query.openAfter_template_run_empty {calls : List Call}
    (hatoms : ∀ text ∈ Session.atomsOfAll .start calls, IsBalanced text.toList) :
    openAfter 0 (Session.run .empty calls).template.toList =
      (Session.run .empty calls).openGroups? := by
  rw [Session.atomsOfAll_start] at hatoms
  rw [toList_template_run_empty, Step.openAfter_sources_partsOfAll hatoms, openGroups?_run_empty]

end FilterTemplate
