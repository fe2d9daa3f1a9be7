/-
  FilterTemplate.Proofs.Query.Steps

  A run as a row of steps. Each call but a group, a build or a rendering is one
  step, a group is its opening, the steps of its calls and its closing, and
  builds and renderings are none. Running the calls takes the query through the
  steps, so what holds of a run is shown step by step, over a plain list.
-/
import FilterTemplate.Query.Inline
import FilterTemplate.Query.Session
import Mathlib.Data.List.Basic

namespace FilterTemplate

/-- What joins two conditions. -/
inductive Connective where
  | and
  | or
  deriving DecidableEq

/-- A connective in a template. -/
def Connective.text : Connective → String
  | .and => " && "
  | .or => " || "

/-- What a call does to a query. -/
inductive Step where
  | compare (c : Comparison)
  /-- Comparisons with a connective between them, in parentheses that are no group. -/
  | enclosed (connective : Connective) (cs : List Comparison)
  | isNull (path : String)
  | isNotNull (path : String)
  | custom (text : String)
  | connect (connective : Connective)
  | openGroup
  | closeGroup

/-! ## The steps of calls -/

namespace Call

mutual

/-- The steps of a call. -/
def steps : Call → List Step
  | .compare path op value => [.compare ⟨path, op, value⟩]
  | .search paths value => [.enclosed .or (comparisons (.search paths value))]
  | .isIn path values => [.enclosed .or (comparisons (.isIn path values))]
  | .isNotIn path values => [.enclosed .and (comparisons (.isNotIn path values))]
  | .between path low high => [.enclosed .and (comparisons (.between path low high))]
  | .notBetween path low high => [.enclosed .or (comparisons (.notBetween path low high))]
  | .isNull path => [.isNull path]
  | .isNotNull path => [.isNotNull path]
  | .custom text => [.custom text]
  | .openGroup => [.openGroup]
  | .group calls => .openGroup :: stepsOfAll calls ++ [.closeGroup]
  | .and => [.connect .and]
  | .or => [.connect .or]
  | .closeGroup => [.closeGroup]
  | .build => []
  | .buildWith _ => []

/-- The steps of calls in a row. -/
def stepsOfAll : List Call → List Step
  | [] => []
  | call :: calls => steps call ++ stepsOfAll calls

end

theorem stepsOfAll_append (xs ys : List Call) :
    stepsOfAll (xs ++ ys) = stepsOfAll xs ++ stepsOfAll ys := by
  induction xs with
  | nil => rfl
  | cons call calls ih => rw [List.cons_append, stepsOfAll, ih, stepsOfAll, List.append_assoc]

/-- Induction over calls in a row. The calls of a group come before the group,
so a statement about rows needs no second statement about single calls. -/
theorem rowInduction {P : List Call → Prop} (nil : P [])
    (cons : ∀ call calls, (∀ inner, call = .group inner → P inner) → P calls →
      P (call :: calls)) :
    ∀ calls, P calls
  | [] => nil
  | call :: calls => by
    refine cons call calls ?_ (rowInduction nil cons calls)
    intro inner hcall
    -- The calls inside a group are smaller than the group.
    have : sizeOf inner < sizeOf call := by rw [hcall]; simp
    exact rowInduction nil cons inner

end Call

/-! ## Taking a query through steps -/

/-- The query after a step. -/
def Query.apply (q : Query) : Step → Query
  | .compare c => q.compare c
  | .enclosed connective cs => q.compareEnclosed connective.text cs
  | .isNull path => q.append (path ++ "=''")
  | .isNotNull path => q.append (path ++ "!=''")
  | .custom text => q.append text
  | .connect connective => q.append connective.text
  | .openGroup => q.openGroup
  | .closeGroup => q.closeGroup

/-- What texts leave alone, comparisons with text between them change one after
the other, as they do without it. -/
theorem Query.compareAll_eq_foldl {α : Type} {f : Query → α} {g : α → Comparison → α}
    (happend : ∀ q text, f (q.append text) = f q) (hcompare : ∀ q c, f (q.compare c) = g (f q) c)
    (glue : String) (q : Query) (cs : List Comparison) :
    f (q.compareAll glue cs) = cs.foldl g (f q) := by
  have hrest : ∀ (rest : List Comparison) (q : Query),
      f (rest.foldl (fun q c => (q.append glue).compare c) q) = rest.foldl g (f q) := by
    intro rest
    induction rest with
    | nil => exact fun _ => rfl
    | cons c rest ih =>
      intro q
      rw [List.foldl_cons, ih, hcompare, happend, List.foldl_cons]
  cases cs with
  | nil => rfl
  | cons c rest => rw [compareAll, hrest, hcompare, List.foldl_cons]

/-- What neither texts nor comparisons change is the same behind all of them. -/
theorem Query.compareAll_eq_self {α : Type} {f : Query → α}
    (happend : ∀ q text, f (q.append text) = f q) (hcompare : ∀ q c, f (q.compare c) = f q)
    (glue : String) (q : Query) (cs : List Comparison) : f (q.compareAll glue cs) = f q := by
  rw [compareAll_eq_foldl (g := fun a _ => a) happend hcompare, List.foldl_fixed]

namespace Session

@[simp] theorem query_update (s : Session) (f : Query → Query) :
    (s.update f).query = f s.query := rfl

@[simp] theorem query_closeGroup (s : Session) : s.closeGroup.query = s.query.closeGroup := by
  rw [closeGroup]
  split <;> rfl

@[simp] theorem query_reportBuild (s : Session) : s.reportBuild.query = s.query := by
  rw [reportBuild]
  split <;> rfl

@[simp] theorem query_reportRendering (s : Session) : s.reportRendering.query = s.query := by
  rw [reportRendering]
  split <;> rfl

/-- Calls take the query through their steps. -/
theorem query_performAll (s : Session) (calls : List Call) :
    (performAll s calls).query = (Call.stepsOfAll calls).foldl Query.apply s.query := by
  induction calls using Call.rowInduction generalizing s with
  | nil => rfl
  | cons call calls hinner ih =>
    rw [performAll, ih, Call.stepsOfAll, List.foldl_append]
    congr 1
    cases call with
    | group inner =>
      -- What the end of the group reports is not part of the query.
      rw [perform, query_closeGroup, hinner inner rfl, query_update, Call.steps,
        List.cons_append, List.foldl_cons, List.foldl_append]
      rfl
    | closeGroup => exact query_closeGroup s
    | build => exact query_reportBuild s
    | buildWith render => exact query_reportRendering s
    | _ => rfl

theorem run_eq_foldl (q : Query) (calls : List Call) :
    run q calls = (Call.stepsOfAll calls).foldl Query.apply q :=
  query_performAll ⟨q, []⟩ calls

theorem run_append (q : Query) (xs ys : List Call) : run q (xs ++ ys) = run (run q xs) ys := by
  rw [run, performAll_append, query_performAll, run_eq_foldl]
  rfl

/-- Rows of calls take a query where one long row takes it. -/
theorem foldl_run (q : Query) (chains : List (List Call)) :
    chains.foldl run q = run q chains.flatten := by
  induction chains generalizing q with
  | nil => rfl
  | cons calls chains ih => rw [List.foldl_cons, ih, List.flatten_cons, run_append]

end Session

/-! ## Building -/

namespace Query

theorem build_eq_ok_iff {q : Query} {p : Prepared} :
    q.build = .ok p ↔ q.imbalance? = none ∧ p = ⟨q.template, q.values⟩ := by
  rw [build]
  cases q.imbalance? with
  | none => simp [eq_comm]
  | some e => simp

theorem buildWith_of_imbalance?_eq_none {q : Query} (h : q.imbalance? = none)
    (render : Renderer) : q.buildWith render = .ok (render q.template (some q.values)) := by
  rw [buildWith, h]

end Query

/-! ## What steps name and write -/

namespace Step

/-- The comparisons of a step. -/
def comparisons : Step → List Comparison
  | .compare c => [c]
  | .enclosed _ cs => cs
  | _ => []

/-- The paths that a step checks for being null or not. -/
def checkedPaths : Step → List String
  | .isNull path => [path]
  | .isNotNull path => [path]
  | _ => []

/-- The texts that a step writes as they are. -/
def customTexts : Step → List String
  | .custom text => [text]
  | _ => []

/-- The filter text of a step. -/
def inline : Step → List Char
  | .compare c => c.inline
  | .enclosed connective cs =>
    '(' :: Comparison.inlineAll connective.text.toList cs ++ [')']
  | .isNull path => path.toList ++ "=''".toList
  | .isNotNull path => path.toList ++ "!=''".toList
  | .custom text => text.toList
  | .connect connective => connective.text.toList
  | .openGroup => ['(']
  | .closeGroup => [')']

end Step

namespace Call

/-- What is collected from the calls in order can be collected from their steps,
if it can for each call that is no group. -/
theorem flatMap_stepsOfAll {α : Type} {f : Step → List α} {g : Call → List α}
    {gAll : List Call → List α} (hnil : gAll [] = [])
    (hcons : ∀ call calls, gAll (call :: calls) = g call ++ gAll calls)
    (hgroup : ∀ inner, g (.group inner) = f .openGroup ++ gAll inner ++ f .closeGroup)
    (hsingle : ∀ call, (∀ inner, call ≠ .group inner) → (steps call).flatMap f = g call)
    (calls : List Call) : (stepsOfAll calls).flatMap f = gAll calls := by
  induction calls using rowInduction with
  | nil => exact hnil.symm
  | cons call calls hinner ih =>
    have hcall : (steps call).flatMap f = g call := by
      cases call with
      | group inner =>
        rw [hgroup, ← hinner inner rfl, steps, List.flatMap_append, List.flatMap_cons,
          List.flatMap_singleton]
      | _ => exact hsingle _ (by simp)
    rw [stepsOfAll, List.flatMap_append, hcall, ih, hcons]

theorem flatMap_comparisons_stepsOfAll (calls : List Call) :
    (stepsOfAll calls).flatMap Step.comparisons = comparisonsOfAll calls := by
  refine flatMap_stepsOfAll rfl (fun _ _ => rfl) (fun _ => (List.append_nil _).symm) ?_ calls
  intro call hcall
  cases call with
  | group inner => exact absurd rfl (hcall inner)
  | _ => simp [steps, comparisons, Step.comparisons]

theorem flatMap_inline_stepsOfAll (calls : List Call) :
    (stepsOfAll calls).flatMap Step.inline = inlineAll calls := by
  refine flatMap_stepsOfAll rfl (fun _ _ => rfl) (fun _ => rfl) ?_ calls
  intro call hcall
  cases call with
  | group inner => exact absurd rfl (hcall inner)
  | _ => simp [steps, inline, Step.inline, Connective.text]

theorem flatMap_checkedPaths_stepsOfAll (calls : List Call) :
    (stepsOfAll calls).flatMap Step.checkedPaths = checkedPathsOfAll calls := by
  refine flatMap_stepsOfAll rfl (fun _ _ => rfl) (fun _ => (List.append_nil _).symm) ?_ calls
  intro call hcall
  cases call with
  | group inner => exact absurd rfl (hcall inner)
  | _ => rfl

theorem flatMap_customTexts_stepsOfAll (calls : List Call) :
    (stepsOfAll calls).flatMap Step.customTexts = customTextsOfAll calls := by
  refine flatMap_stepsOfAll rfl (fun _ _ => rfl) (fun _ => (List.append_nil _).symm) ?_ calls
  intro call hcall
  cases call with
  | group inner => exact absurd rfl (hcall inner)
  | _ => rfl

section

variable {calls : List Call} {step : Step}

theorem mem_comparisonsOfAll (h : step ∈ stepsOfAll calls) {c : Comparison}
    (hc : c ∈ step.comparisons) : c ∈ comparisonsOfAll calls := by
  rw [← flatMap_comparisons_stepsOfAll]
  exact List.mem_flatMap.2 ⟨step, h, hc⟩

theorem mem_checkedPathsOfAll (h : step ∈ stepsOfAll calls) {path : String}
    (hpath : path ∈ step.checkedPaths) : path ∈ checkedPathsOfAll calls := by
  rw [← flatMap_checkedPaths_stepsOfAll]
  exact List.mem_flatMap.2 ⟨step, h, hpath⟩

theorem mem_customTextsOfAll (h : step ∈ stepsOfAll calls) {text : String}
    (htext : text ∈ step.customTexts) : text ∈ customTextsOfAll calls := by
  rw [← flatMap_customTexts_stepsOfAll]
  exact List.mem_flatMap.2 ⟨step, h, htext⟩

end

end Call

end FilterTemplate
