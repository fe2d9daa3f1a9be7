/-
  FilterTemplate.Proofs.Query.Derivation

  Calls in order write filters. While a run goes on its template is a filter
  cut off: for each open group the text in front of its parenthesis, and behind
  the last one what the stage allows. The stages know nothing of groups and the
  groups nothing of stages; both together say what the template is.
-/
import FilterTemplate.Proofs.Query.Names
import FilterTemplate.Proofs.Query.Nesting
import FilterTemplate.Proofs.Query.Stages

namespace FilterTemplate

open Segment (sources)
open Text (IsBalanced openAfter)

variable {atom : List Char → Prop}

/-! ## Filters cut off -/

/-- A text behind which a condition may follow. -/
inductive IsLead (atom : List Char → Prop) : List Char → Prop where
  | nil : IsLead atom []
  | connect (connective : Connective) {s : List Char} :
    IsFilter atom s → IsLead atom (s ++ connective.text.toList)

theorem IsLead.isFilter_append {s t : List Char} (hs : IsLead atom s)
    (ht : IsCondition atom t) : IsFilter atom (s ++ t) := by
  cases hs with
  | nil => exact .condition ht
  | connect connective h => exact h.connect connective ht

/-- What a stage allows behind the innermost open parenthesis. -/
def Stage.Allows (atom : List Char → Prop) : Stage → List Char → Prop
  | .condition => IsLead atom
  | .complete => IsFilter atom

/-- A filter cut off at a stage, where as many parentheses are open as the number says. -/
inductive IsPartial (atom : List Char → Prop) (stage : Stage) : Nat → List Char → Prop where
  | innermost {s : List Char} : stage.Allows atom s → IsPartial atom stage 0 s
  | inside {n : Nat} {s t : List Char} :
    IsLead atom s → IsPartial atom stage n t → IsPartial atom stage (n + 1) (s ++ '(' :: t)

namespace IsPartial

variable {n : Nat} {s t : List Char} {stage stage' : Stage}

/-- What may follow in the innermost parentheses may follow at the end of the text. -/
theorem append (hinner : ∀ s, stage.Allows atom s → stage'.Allows atom (s ++ t))
    (h : IsPartial atom stage n s) : IsPartial atom stage' n (s ++ t) := by
  induction h with
  | innermost hs => exact .innermost (hinner _ hs)
  | inside hs _ ih =>
    rw [List.append_assoc, List.cons_append]
    exact .inside hs ih

theorem condition (h : IsPartial atom .condition n s) (ht : IsCondition atom t) :
    IsPartial atom .complete n (s ++ t) := by
  have hinner : ∀ s, Stage.condition.Allows atom s → Stage.complete.Allows atom (s ++ t) :=
    fun _ hs => IsLead.isFilter_append hs ht
  exact h.append hinner

theorem connect (h : IsPartial atom .complete n s) (connective : Connective) :
    IsPartial atom .condition n (s ++ connective.text.toList) := by
  have hinner : ∀ s, Stage.complete.Allows atom s →
      Stage.condition.Allows atom (s ++ connective.text.toList) :=
    fun _ hs => .connect connective hs
  exact h.append hinner

theorem openGroup (h : IsPartial atom .condition n s) :
    IsPartial atom .condition (n + 1) (s ++ ['(']) := by
  induction h with
  | innermost hs => exact .inside hs (.innermost .nil)
  | inside hs _ ih =>
    rw [List.append_assoc, List.cons_append]
    exact .inside hs ih

/-- Closing the last of several groups completes the text in it to a condition
of the group around it. -/
theorem closeGroup (h : IsPartial atom .complete (n + 1) s) :
    IsPartial atom .complete n (s ++ [')']) := by
  -- Down to the last open parenthesis, between which and the end a filter stands.
  induction n generalizing s with
  | zero =>
    obtain _ | ⟨hs, ⟨ht⟩⟩ := h
    rw [List.append_assoc]
    exact .innermost (hs.isFilter_append (.group ht))
  | succ n ih =>
    obtain _ | ⟨hs, ht⟩ := h
    rw [List.append_assoc, List.cons_append]
    exact .inside hs (ih ht)

end IsPartial

/-! ## Filters step by step -/

namespace IsPartial

theorem step {stage stage' : Stage} {n m : Nat} {s : List Char} {uses : String → Nat}
    {step : Step} (hstage : stage.next step = some stage') (hgroups : step.groupsAfter n = some m)
    (hatoms : ∀ text ∈ step.atoms uses, atom text.toList) (h : IsPartial atom stage n s) :
    IsPartial atom stage' m (s ++ sources (step.parts uses)) := by
  cases step with
  | connect connective =>
    have hparts : sources (Step.parts uses (.connect connective)) = connective.text.toList := by
      simp [Step.parts, Segment.source]
    cases stage with
    | condition => exact absurd hstage (by simp [Stage.next])
    | complete =>
      cases hstage
      cases hgroups
      rw [hparts]
      exact h.connect connective
  | openGroup =>
    cases stage with
    | condition =>
      cases hstage
      cases hgroups
      exact h.openGroup
    | complete => exact absurd hstage (by simp [Stage.next])
  | closeGroup =>
    cases stage with
    | condition => exact absurd hstage (by simp [Stage.next])
    | complete =>
      cases hstage
      cases n with
      | zero => exact absurd hgroups (by simp [Step.groupsAfter])
      | succ n =>
        cases hgroups
        exact h.closeGroup
  | _ =>
    cases stage with
    | condition =>
      cases hstage
      cases hgroups
      exact h.condition (Step.isCondition_sources_parts rfl hatoms)
    | complete => exact absurd hstage (by simp [Stage.next])

/-- Steps at the right stages take a filter cut off to another one. -/
theorem steps {stage stage' : Stage} {n m : Nat} {s : List Char} {uses : String → Nat}
    {steps : List Step} (hstage : steps.foldlM Stage.next stage = some stage')
    (hgroups : steps.foldlM Step.groupsAfter n = some m)
    (hatoms : ∀ text ∈ Step.atomsOfAll uses steps, atom text.toList)
    (h : IsPartial atom stage n s) :
    IsPartial atom stage' m (s ++ sources (Step.partsOfAll uses steps)) := by
  induction steps generalizing stage n s uses with
  | nil =>
    cases hstage
    cases hgroups
    rwa [Step.partsOfAll, Segment.sources_nil, List.append_nil]
  | cons first rest ih =>
    rw [List.foldlM_cons, Option.bind_eq_bind] at hstage hgroups
    obtain ⟨stage₁, hfirst, hstage⟩ := Option.bind_eq_some_iff.1 hstage
    obtain ⟨n₁, hcount, hgroups⟩ := Option.bind_eq_some_iff.1 hgroups
    obtain ⟨hown, hrest⟩ := List.forall_mem_append.1 hatoms
    rw [Step.partsOfAll, Segment.sources_append, ← List.append_assoc]
    exact ih hstage hgroups hrest (h.step hfirst hcount hown)

end IsPartial

/-! ## Series of chains -/

namespace Call

theorem foldlM_next_stepsOfAll_flatten {chains : List (List Call)}
    (h : ∀ calls ∈ chains, checkAll .condition 0 calls = .ok .condition) :
    (stepsOfAll chains.flatten).foldlM Stage.next .condition = some .condition := by
  induction chains with
  | nil => rfl
  | cons calls chains ih =>
    obtain ⟨hcalls, hchains⟩ := List.forall_mem_cons.1 h
    rw [List.flatten_cons, stepsOfAll_append, List.foldlM_append, foldlM_next_stepsOfAll hcalls]
    exact ih hchains

end Call

/-- The text is one that the calls, run from nothing, write as a single condition. -/
def Call.IsAtom (calls : List Call) (s : List Char) : Prop :=
  ∃ text ∈ Session.atomsOfAll .start calls, s = text.toList

/-- The text has no parenthesis. -/
def HasNoParenthesis (s : String) : Prop :=
  '(' ∉ s.toList ∧ ')' ∉ s.toList

instance : DecidablePred HasNoParenthesis := fun _ => inferInstanceAs (Decidable (_ ∧ _))

theorem HasNoParenthesis.isBalanced {s : String} (h : HasNoParenthesis s) :
    IsBalanced s.toList :=
  Text.isBalanced_of_not_mem h.1 h.2

theorem Operator.hasNoParenthesis_token (op : Operator) : HasNoParenthesis op.token := by
  cases op <;> decide +kernel

namespace Query

theorem isBalanced_comparisonText {path : String} (h : HasNoParenthesis path) (op : Operator)
    (count : Nat) : IsBalanced (comparisonText path op count).toList := by
  have hname : HasNoParenthesis (paramName path count) :=
    ⟨not_mem_paramName h.1 (by decide) count, not_mem_paramName h.2 (by decide) count⟩
  have hopening : IsBalanced ['\x7b', ':'] := Text.isBalanced_of_not_mem (by decide) (by decide)
  have hclosing : IsBalanced ['\x7d'] := Text.isBalanced_of_not_mem (by decide) (by decide)
  rw [comparisonText, String.toList_append, String.toList_append, String.toList_ofList]
  exact (h.isBalanced.append op.hasNoParenthesis_token.isBalanced).append
    (hopening.append (hname.isBalanced.append hclosing))

theorem isBalanced_atoms {calls : List Call}
    (hcompared : ∀ c ∈ Call.comparisonsOfAll calls, HasNoParenthesis c.path)
    (hchecked : ∀ path ∈ Call.checkedPathsOfAll calls, HasNoParenthesis path)
    (hcustom : ∀ text ∈ Call.customTextsOfAll calls, HasNoParenthesis text) :
    ∀ text ∈ Session.atomsOfAll .start calls, IsBalanced text.toList := by
  rw [Session.atomsOfAll_start]
  refine Call.forall_atoms (P := fun text => IsBalanced text.toList) ?_ ?_ ?_ _
  · intro c hc count
    exact isBalanced_comparisonText (hcompared c hc) c.operator count
  · intro path hpath
    have hequal : HasNoParenthesis "=''" := by decide +kernel
    have hdiffers : HasNoParenthesis "!=''" := by decide +kernel
    rw [String.toList_append, String.toList_append]
    exact ⟨(hchecked path hpath).isBalanced.append hequal.isBalanced,
      (hchecked path hpath).isBalanced.append hdiffers.isBalanced⟩
  · exact fun text htext => (hcustom text htext).isBalanced

/-- A run through the right stages that leaves no group open writes a filter. -/
theorem isFilter_template_run_empty {calls : List Call}
    (hstages : (Call.stepsOfAll calls).foldlM Stage.next .condition = some .complete)
    (hgroups : (Session.run .empty calls).openGroups? = some 0) :
    IsFilter (Call.IsAtom calls) (Session.run .empty calls).template.toList := by
  have hatoms : ∀ text ∈ Step.atomsOfAll (fun _ => 0) (Call.stepsOfAll calls),
      Call.IsAtom calls text.toList := by
    intro text htext
    rw [← Session.atomsOfAll_start] at htext
    exact ⟨text, htext, rfl⟩
  rw [openGroups?_run_empty] at hgroups
  rw [toList_template_run_empty]
  -- Nothing is a filter cut off, and all steps together leave no group open.
  obtain ⟨hwhole⟩ := IsPartial.steps hstages hgroups hatoms (.innermost .nil)
  exact hwhole

end Query

/-- Chains in order write filters. Take a series of chains on one query, each
but the last ending where a condition is due and the last where one is
complete. If the query is built, its template is a filter over the atoms of all
the chains. If no path and no custom text has a parenthesis, the query is built
exactly if its template is such a filter. A clone is the query as it was, so
its chains are those made before it was taken and those made on it. -/
theorem Query.isFilter_template_of_chains (chains : List (List Call)) (last : List Call)
    (hchains : ∀ calls ∈ chains, Call.checkAll .condition 0 calls = .ok .condition)
    (hlast : Call.checkAll .condition 0 last = .ok .complete) :
    let q := Session.run (chains.foldl Session.run .empty) last
    let calls := chains.flatten ++ last
    (∀ p, q.build = .ok p → IsFilter (Call.IsAtom calls) p.template.toList) ∧
      ((∀ c ∈ Call.comparisonsOfAll calls, HasNoParenthesis c.path) →
        (∀ path ∈ Call.checkedPathsOfAll calls, HasNoParenthesis path) →
        (∀ text ∈ Call.customTextsOfAll calls, HasNoParenthesis text) →
          ((∃ p, q.build = .ok p) ↔ IsFilter (Call.IsAtom calls) q.template.toList)) := by
  intro q calls
  have hrun : q = Session.run .empty calls := by
    rw [Session.run_append, ← Session.foldl_run]
  have hstages : (Call.stepsOfAll calls).foldlM Stage.next .condition = some .complete := by
    rw [Call.stepsOfAll_append, List.foldlM_append, Call.foldlM_next_stepsOfAll_flatten hchains]
    exact Call.foldlM_next_stepsOfAll hlast
  have hfilter : (∃ p, q.build = .ok p) → IsFilter (Call.IsAtom calls) q.template.toList := by
    rw [build_eq_ok_iff_openGroups?, hrun]
    exact isFilter_template_run_empty hstages
  refine ⟨?_, fun hcompared hchecked hcustom => ⟨hfilter, fun hderived => ?_⟩⟩
  · intro p hbuild
    obtain ⟨-, rfl⟩ := build_eq_ok_iff.1 hbuild
    exact hfilter ⟨_, hbuild⟩
  · -- Reading the template finds the groups that the query counts: none at the end.
    have hbalanced := isBalanced_atoms hcompared hchecked hcustom
    have hread : openAfter 0 q.template.toList = some 0 := by
      refine hderived.isBalanced ?_ 0
      rintro _ ⟨text, htext, rfl⟩
      exact hbalanced text htext
    rw [hrun, openAfter_template_run_empty hbalanced, ← hrun] at hread
    exact build_eq_ok_iff_openGroups?.2 hread

/-- Three chains with a group whose calls close it early and open another one,
and a chain with a group whose calls close it, so that its own end closes none. -/
theorem Query.isFilter_template_of_chains_closing_early :
    let chains : List (List Call) := [[.equal "a" (.int 1), .and], [.openGroup]]
    let last : List Call :=
      [.group [.isIn "a" [.int 2, .int 3], .closeGroup, .or, .openGroup, .isNull "b"],
        .closeGroup, .or, .custom "c"]
    let unmatched : List Call := [.group [.equal "a" (.int 1), .closeGroup]]
    let filter := "a=\x7b:a1\x7d && (((a=\x7b:a2\x7d || a=\x7b:a3\x7d)) || (b='')) || c"
    ((Session.run (chains.foldl Session.run .empty) last).template = filter ∧
        IsFilter (Call.IsAtom (chains.flatten ++ last)) filter.toList) ∧
      (Session.run .empty unmatched).template = "(a=\x7b:a1\x7d))" ∧
      ¬ IsFilter (Call.IsAtom unmatched) "(a=\x7b:a1\x7d))".toList := by
  intro chains last unmatched filter
  have hbuild : (Session.run (chains.foldl Session.run .empty) last).imbalance? = none := by
    decide +kernel
  have hfails : (Session.run .empty unmatched).imbalance? ≠ none := by decide +kernel
  have hwritten : (Session.run (chains.foldl Session.run .empty) last).template = filter := by
    decide +kernel
  have hunmatched : (Session.run .empty unmatched).template = "(a=\x7b:a1\x7d))" := by
    decide +kernel
  obtain ⟨hfilter, -⟩ :=
    isFilter_template_of_chains chains last (by decide +kernel) (by decide +kernel)
  obtain ⟨-, hiff⟩ :=
    isFilter_template_of_chains [] unmatched (by decide +kernel) (by decide +kernel)
  refine ⟨⟨hwritten, ?_⟩, hunmatched, ?_⟩
  · have hderived := hfilter _ (build_eq_ok_iff.2 ⟨hbuild, rfl⟩)
    rw [← hwritten]
    exact hderived
  · intro hderived
    rw [← hunmatched] at hderived
    obtain ⟨p, hp⟩ :=
      (hiff (by decide +kernel) (by decide +kernel) (by decide +kernel)).2 hderived
    exact hfails (build_eq_ok_iff.1 hp).1

end FilterTemplate
