/-
  FilterTemplate.Proofs.Query.Stages

  Calls at the right stages. The check goes through the calls from one stage to
  the next, so rows that fit together are checked one behind the other, and the
  place where a row starts does not matter. Calls at the right stages are steps
  at the right stages.
-/
import FilterTemplate.Proofs.Query.Steps

namespace FilterTemplate

/-! ## Rows of calls -/

namespace Call

theorem exists_of_checkAll_cons {stage stage' : Stage} {index : Nat} {call : Call}
    {calls : List Call} (h : checkAll stage index (call :: calls) = .ok stage') :
    ∃ between, check stage call = .ok between ∧
      checkAll between (index + 1) calls = .ok stage' := by
  rw [checkAll] at h
  cases hcall : check stage call with
  | error place => simp [hcall] at h
  | ok between => exact ⟨between, rfl, by simpa [hcall] using h⟩

theorem exists_of_check_group {stage stage' : Stage} {calls : List Call}
    (h : check stage (.group calls) = .ok stage') :
    stage = .condition ∧ stage' = .complete ∧ checkAll .condition 0 calls = .ok .complete := by
  cases stage with
  | complete => simp [check] at h
  | condition =>
    rw [check] at h
    cases hcalls : checkAll .condition 0 calls with
    | error place => simp [hcalls] at h
    | ok last =>
      cases last with
      | condition => simp [hcalls] at h
      | complete => simp_all

theorem checkAll_cons {stage between : Stage} {call : Call} (h : check stage call = .ok between)
    (index : Nat) (calls : List Call) :
    checkAll stage index (call :: calls) = checkAll between (index + 1) calls := by
  rw [checkAll, h]

/-- Calls at the right stages are so wherever counting starts. -/
theorem checkAll_eq_ok_of_index {stage stage' : Stage} {index : Nat} (other : Nat)
    {calls : List Call} (h : checkAll stage index calls = .ok stage') :
    checkAll stage other calls = .ok stage' := by
  induction calls generalizing stage index other with
  | nil => exact h
  | cons call calls ih =>
    obtain ⟨between, hcall, hcalls⟩ := exists_of_checkAll_cons h
    rw [checkAll_cons hcall]
    exact ih (other + 1) hcalls

theorem checkAll_append {stage between stage' : Stage} {index : Nat} {xs ys : List Call}
    (hxs : checkAll stage index xs = .ok between) (hys : checkAll between 0 ys = .ok stage') :
    checkAll stage index (xs ++ ys) = .ok stage' := by
  induction xs generalizing stage index with
  | nil =>
    rw [checkAll] at hxs
    rw [List.nil_append, Except.ok.inj hxs]
    exact checkAll_eq_ok_of_index index hys
  | cons call calls ih =>
    obtain ⟨next, hcall, hcalls⟩ := exists_of_checkAll_cons hxs
    rw [List.cons_append, checkAll_cons hcall]
    exact ih hcalls

end Call

/-! ## Stages step by step -/

/-- The stage after a step, if the step is allowed. -/
def Stage.next : Stage → Step → Option Stage
  | .condition, .connect _ => none
  | .condition, .closeGroup => none
  | .condition, .openGroup => some .condition
  | .condition, _ => some .complete
  | .complete, .connect _ => some .condition
  | .complete, .closeGroup => some .complete
  | .complete, _ => none

namespace Call

/-- Calls that come at the right stages are steps that do. -/
theorem foldlM_next_stepsOfAll {stage stage' : Stage} {index : Nat} {calls : List Call}
    (h : checkAll stage index calls = .ok stage') :
    (stepsOfAll calls).foldlM Stage.next stage = some stage' := by
  induction calls using rowInduction generalizing stage index stage' with
  | nil =>
    rw [checkAll] at h
    rw [Except.ok.inj h]
    rfl
  | cons call calls hinner ih =>
    obtain ⟨between, hcall, hcalls⟩ := exists_of_checkAll_cons h
    have hsteps : (steps call).foldlM Stage.next stage = some between := by
      cases call with
      | group inner =>
        -- The calls inside start and end at fixed stages, whatever they open or close.
        obtain ⟨rfl, rfl, hgroup⟩ := exists_of_check_group hcall
        rw [steps, List.cons_append, List.foldlM_cons, Stage.next, Option.bind_eq_bind,
          Option.bind_some, List.foldlM_append, hinner inner rfl hgroup]
        rfl
      | openGroup =>
        cases stage with
        | condition => exact congrArg some (Except.ok.inj hcall)
        | complete => exact absurd hcall (by simp [check])
      | closeGroup =>
        cases stage with
        | condition => exact absurd hcall (by simp [check])
        | complete => exact congrArg some (Except.ok.inj hcall)
      | _ =>
        cases stage with
        | condition => simp_all [check, steps, Stage.next]
        | complete => simp_all [check, steps, Stage.next]
    rw [stepsOfAll, List.foldlM_append, hsteps]
    exact ih hcalls

end Call

end FilterTemplate
