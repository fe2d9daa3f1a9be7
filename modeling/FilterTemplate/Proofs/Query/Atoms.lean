/-
  FilterTemplate.Proofs.Query.Atoms

  The texts that a run writes as single conditions. Their names depend on the
  uses of paths so far and on nothing else of the query, so they can be read
  off the steps.
-/
import FilterTemplate.Proofs.Query.Bindings
import FilterTemplate.Query.Grammar

namespace FilterTemplate

open Comparison (countUse countUses)

/-- The texts that comparisons write, without what stands between them. -/
def Comparison.atoms (uses : String → Nat) : List Comparison → List String
  | [] => []
  | c :: rest =>
    Query.comparisonText c.path c.operator (uses c.path + 1) ::
      atoms (countUse uses c.path) rest

theorem Comparison.exists_of_mem_atoms {uses : String → Nat} {cs : List Comparison}
    {text : String} (h : text ∈ atoms uses cs) :
    ∃ c ∈ cs, ∃ count, text = Query.comparisonText c.path c.operator count := by
  induction cs generalizing uses with
  | nil => exact absurd h List.not_mem_nil
  | cons c rest ih =>
    rw [atoms, List.mem_cons] at h
    rcases h with rfl | h
    · exact ⟨c, List.mem_cons_self, _, rfl⟩
    · obtain ⟨d, hd, count, heq⟩ := ih h
      exact ⟨d, List.mem_cons_of_mem c hd, count, heq⟩

theorem Query.comparisonTexts_eq_atoms (q : Query) (cs : List Comparison) :
    q.comparisonTexts cs = Comparison.atoms q.useCount cs := by
  induction cs generalizing q with
  | nil => rfl
  | cons c rest ih =>
    have huses : (q.bind c.path c.value).useCount = countUse q.useCount c.path :=
      funext fun other => useCount_bind q c.path other c.value
    rw [comparisonTexts, ih, huses, Comparison.atoms]

namespace Step

/-- The texts that a step writes as single conditions. -/
def atoms (uses : String → Nat) : Step → List String
  | .compare c => Comparison.atoms uses [c]
  | .enclosed _ cs => Comparison.atoms uses cs
  | .isNull path => [path ++ "=''"]
  | .isNotNull path => [path ++ "!=''"]
  | .custom text => [text]
  | _ => []

/-- The texts that steps in a row write as single conditions. -/
def atomsOfAll (uses : String → Nat) : List Step → List String
  | [] => []
  | step :: steps => step.atoms uses ++ atomsOfAll (countUses uses step.comparisons) steps

theorem atomsOfAll_append (uses : String → Nat) (xs ys : List Step) :
    atomsOfAll uses (xs ++ ys) =
      atomsOfAll uses xs ++ atomsOfAll (countUses uses (xs.flatMap comparisons)) ys := by
  induction xs generalizing uses with
  | nil => rfl
  | cons step steps ih =>
    rw [List.cons_append, atomsOfAll, ih, atomsOfAll, List.append_assoc, List.flatMap_cons,
      Comparison.countUses_append]

theorem exists_of_mem_atomsOfAll {uses : String → Nat} {steps : List Step} {text : String}
    (h : text ∈ atomsOfAll uses steps) : ∃ step ∈ steps, ∃ uses', text ∈ step.atoms uses' := by
  induction steps generalizing uses with
  | nil => exact absurd h List.not_mem_nil
  | cons step steps ih =>
    rw [atomsOfAll, List.mem_append] at h
    rcases h with h | h
    · exact ⟨step, List.mem_cons_self, uses, h⟩
    · obtain ⟨other, hother, uses', htext⟩ := ih h
      exact ⟨other, List.mem_cons_of_mem step hother, uses', htext⟩

end Step

/-- The atoms of calls are those of their steps. -/
theorem Session.atomsOfAll_eq (s : Session) (calls : List Call) :
    atomsOfAll s calls = Step.atomsOfAll s.query.useCount (Call.stepsOfAll calls) := by
  induction calls using Call.rowInduction generalizing s with
  | nil => rfl
  | cons call calls hinner ih =>
    -- The later atoms are named by the uses that this call leaves.
    have huses : (perform s call).query.useCount =
        countUses s.query.useCount ((Call.steps call).flatMap Step.comparisons) := by
      have hquery := query_performAll s [call]
      rw [Call.stepsOfAll, Call.stepsOfAll, List.append_nil] at hquery
      exact hquery ▸ (Query.values_foldl_apply s.query (Call.steps call)).2
    rw [atomsOfAll, ih, huses, Call.stepsOfAll, Step.atomsOfAll_append]
    congr 1
    cases call with
    | group inner =>
      rw [atoms, hinner inner rfl, Call.steps, Step.atomsOfAll_append]
      exact (List.append_nil _).symm
    | isNull path => rfl
    | isNotNull path => rfl
    | custom text => rfl
    | _ => simp [atoms, Call.steps, Step.atomsOfAll, Step.atoms, Query.comparisonTexts_eq_atoms,
        Call.comparisons]

theorem Session.atomsOfAll_start (calls : List Call) :
    atomsOfAll .start calls = Step.atomsOfAll (fun _ => 0) (Call.stepsOfAll calls) :=
  atomsOfAll_eq .start calls

/-- A property of all atoms of a run: it has to hold of comparisons whatever
their number, null checks and custom texts. -/
theorem Call.forall_atoms {P : String → Prop} {calls : List Call}
    (hcompared : ∀ c ∈ comparisonsOfAll calls, ∀ count,
      P (Query.comparisonText c.path c.operator count))
    (hchecked : ∀ path ∈ checkedPathsOfAll calls, P (path ++ "=''") ∧ P (path ++ "!=''"))
    (hcustom : ∀ text ∈ customTextsOfAll calls, P text) (uses : String → Nat) :
    ∀ text ∈ Step.atomsOfAll uses (stepsOfAll calls), P text := by
  intro text htext
  obtain ⟨step, hstep, uses', hatom⟩ := Step.exists_of_mem_atomsOfAll htext
  have hcs : ∀ {uses : String → Nat}, text ∈ Comparison.atoms uses step.comparisons → P text := by
    intro uses h
    obtain ⟨c, hc, count, rfl⟩ := Comparison.exists_of_mem_atoms h
    exact hcompared c (mem_comparisonsOfAll hstep hc) count
  cases step with
  | compare c => exact hcs hatom
  | enclosed connective cs => exact hcs hatom
  | isNull path =>
    rw [List.mem_singleton.1 hatom]
    exact (hchecked path (mem_checkedPathsOfAll hstep List.mem_cons_self)).1
  | isNotNull path =>
    rw [List.mem_singleton.1 hatom]
    exact (hchecked path (mem_checkedPathsOfAll hstep List.mem_cons_self)).2
  | custom own =>
    rw [List.mem_singleton.1 hatom]
    exact hcustom own (mem_customTextsOfAll hstep List.mem_cons_self)
  | _ => exact absurd hatom List.not_mem_nil

end FilterTemplate
