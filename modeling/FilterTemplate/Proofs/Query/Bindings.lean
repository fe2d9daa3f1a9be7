/-
  FilterTemplate.Proofs.Query.Bindings

  What a run binds. The uses of paths so far decide the name of each
  comparison, so the names and values that a row of comparisons binds are a
  list of their own, `bindings`, and a run does nothing to the values but set
  that list, one entry after the other.
-/
import FilterTemplate.Proofs.Query.Steps
import FilterTemplate.Proofs.Table

namespace FilterTemplate

namespace Comparison

/-- The uses of paths after one more use of a path. -/
def countUse (uses : String → Nat) (path : String) : String → Nat := fun other =>
  if other = path then uses path + 1 else uses other

/-- The uses of paths after comparisons. -/
def countUses (uses : String → Nat) (cs : List Comparison) : String → Nat :=
  cs.foldl (fun uses c => countUse uses c.path) uses

/-- The names that comparisons bind, with the values they are bound to. -/
def bindings (uses : String → Nat) : List Comparison → List (String × Value)
  | [] => []
  | c :: rest =>
    (Query.paramName c.path (uses c.path + 1), c.value) :: bindings (countUse uses c.path) rest

@[simp] theorem countUses_cons (uses : String → Nat) (c : Comparison) (rest : List Comparison) :
    countUses uses (c :: rest) = countUses (countUse uses c.path) rest := rfl

theorem countUses_append (uses : String → Nat) (cs ds : List Comparison) :
    countUses uses (cs ++ ds) = countUses (countUses uses cs) ds := by
  simp [countUses, List.foldl_append]

theorem bindings_append (uses : String → Nat) (cs ds : List Comparison) :
    bindings uses (cs ++ ds) = bindings uses cs ++ bindings (countUses uses cs) ds := by
  induction cs generalizing uses with
  | nil => rfl
  | cons c rest ih =>
    rw [List.cons_append, bindings, ih, bindings, countUses_cons, List.cons_append]

theorem le_countUse (uses : String → Nat) (path other : String) :
    uses other ≤ countUse uses path other := by
  rw [countUse]
  split
  · next h => rw [h]; omega
  · exact Nat.le_refl _

/-- Each binding is that of a comparison whose use is counted beyond those before. -/
theorem exists_of_mem_bindings {uses : String → Nat} {cs : List Comparison}
    {b : String × Value} (h : b ∈ bindings uses cs) :
    ∃ c ∈ cs, b.2 = c.value ∧ ∃ count, uses c.path < count ∧
      b.1 = Query.paramName c.path count := by
  induction cs generalizing uses with
  | nil => exact absurd h List.not_mem_nil
  | cons c rest ih =>
    rw [bindings, List.mem_cons] at h
    rcases h with rfl | h
    · exact ⟨c, List.mem_cons_self, rfl, uses c.path + 1, by omega, rfl⟩
    · obtain ⟨d, hd, hvalue, count, hcount, hname⟩ := ih h
      have hle := le_countUse uses c.path d.path
      exact ⟨d, List.mem_cons_of_mem c hd, hvalue, count, by omega, hname⟩

end Comparison

/-! ## The values of a run -/

namespace Query

open Comparison

@[simp] theorem values_append (q : Query) (text : String) :
    (q.append text).values = q.values := rfl

@[simp] theorem useCount_append (q : Query) (text : String) :
    (q.append text).useCount = q.useCount := rfl

theorem values_compare (q : Query) (c : Comparison) :
    (q.compare c).values = q.values.insert (paramName c.path (q.useCount c.path + 1)) c.value :=
  rfl

theorem useCount_compare (q : Query) (c : Comparison) :
    (q.compare c).useCount = countUse q.useCount c.path := by
  funext other
  exact useCount_bind q c.path other c.value

/-- Comparisons with text between them bind what they bind without it. -/
theorem values_compareAll (glue : String) (q : Query) (cs : List Comparison) :
    (q.compareAll glue cs).values = q.values.extend (bindings q.useCount cs) ∧
      (q.compareAll glue cs).useCount = countUses q.useCount cs := by
  -- Behind the first comparison the query is any that made some already.
  have hrest : ∀ (rest : List Comparison) (q : Query),
      (rest.foldl (fun q c => (q.append glue).compare c) q).values =
          q.values.extend (bindings q.useCount rest) ∧
        (rest.foldl (fun q c => (q.append glue).compare c) q).useCount =
          countUses q.useCount rest := by
    intro rest
    induction rest with
    | nil => exact fun q => ⟨rfl, rfl⟩
    | cons c rest ih =>
      intro q
      obtain ⟨hvalues, huses⟩ := ih ((q.append glue).compare c)
      rw [List.foldl_cons, hvalues, huses, values_compare, useCount_compare]
      exact ⟨rfl, rfl⟩
  cases cs with
  | nil => exact ⟨rfl, rfl⟩
  | cons c rest =>
    obtain ⟨hvalues, huses⟩ := hrest rest (q.compare c)
    rw [compareAll, hvalues, huses, values_compare, useCount_compare]
    exact ⟨rfl, rfl⟩

theorem values_apply (q : Query) (step : Step) :
    (q.apply step).values = q.values.extend (bindings q.useCount step.comparisons) ∧
      (q.apply step).useCount = countUses q.useCount step.comparisons := by
  cases step with
  | compare c => exact ⟨rfl, useCount_compare q c⟩
  | enclosed connective cs => exact values_compareAll connective.text (q.append "(") cs
  | _ => exact ⟨rfl, rfl⟩

/-- A run binds what its comparisons bind, in their order. -/
theorem values_foldl_apply (q : Query) (steps : List Step) :
    (steps.foldl apply q).values =
        q.values.extend (bindings q.useCount (steps.flatMap Step.comparisons)) ∧
      (steps.foldl apply q).useCount =
        countUses q.useCount (steps.flatMap Step.comparisons) := by
  induction steps generalizing q with
  | nil => exact ⟨rfl, rfl⟩
  | cons step steps ih =>
    obtain ⟨hvalues, huses⟩ := ih (q.apply step)
    obtain ⟨hstep, hcount⟩ := values_apply q step
    rw [List.foldl_cons, hvalues, huses, hstep, hcount, List.flatMap_cons, bindings_append,
      countUses_append, Table.extend_append]
    exact ⟨rfl, rfl⟩

/-- The values of a run from nothing are those that its comparisons bind. -/
theorem values_run_empty (calls : List Call) :
    (Session.run .empty calls).values =
      .ofList (bindings (fun _ => 0) (Call.comparisonsOfAll calls)) := by
  rw [Session.run_eq_foldl, (values_foldl_apply _ _).1, Call.flatMap_comparisons_stepsOfAll]
  rfl

end Query

end FilterTemplate
