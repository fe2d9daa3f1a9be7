/-
  FilterTemplate.Proofs.Query.Parts

  The template of a run, part by part. A step writes fixed texts and, for each
  of its comparisons, the placeholder of the name that the comparison binds.
  The parts depend on the comparisons' paths and operators and on nothing of
  their values.
-/
import FilterTemplate.Proofs.Query.Bindings
import FilterTemplate.Proofs.Substitution

namespace FilterTemplate

open Segment (sources fillWith)

namespace Comparison

/-- What a comparison writes in front of its value. -/
def lead (c : Comparison) : List Char :=
  c.path.toList ++ c.operator.token.toList

/-- The parts of a comparison. -/
def parts (uses : String → Nat) (c : Comparison) : List Segment :=
  [.text c.lead, .placeholder (Query.paramName c.path (uses c.path + 1))]

/-- The parts of comparisons with `glue` in front of each. -/
def partsBehind (glue : List Char) (uses : String → Nat) : List Comparison → List Segment
  | [] => []
  | c :: rest => .text glue :: c.parts uses ++ partsBehind glue (countUse uses c.path) rest

/-- The parts of comparisons with `glue` between them. -/
def partsOfAll (glue : List Char) (uses : String → Nat) : List Comparison → List Segment
  | [] => []
  | c :: rest => c.parts uses ++ partsBehind glue (countUse uses c.path) rest

end Comparison

namespace Step

/-- The parts of a step. -/
def parts (uses : String → Nat) : Step → List Segment
  | .compare c => c.parts uses
  | .enclosed connective cs =>
    .text ['('] :: Comparison.partsOfAll connective.text.toList uses cs ++ [.text [')']]
  | .isNull path => [.text (path.toList ++ "=''".toList)]
  | .isNotNull path => [.text (path.toList ++ "!=''".toList)]
  | .custom text => [.text text.toList]
  | .connect connective => [.text connective.text.toList]
  | .openGroup => [.text ['(']]
  | .closeGroup => [.text [')']]

/-- The parts of steps in a row. -/
def partsOfAll (uses : String → Nat) : List Step → List Segment
  | [] => []
  | step :: steps =>
    step.parts uses ++ partsOfAll (Comparison.countUses uses step.comparisons) steps

/-- The fixed texts of a step. -/
def texts : Step → List (List Char)
  | .compare c => [c.lead]
  | .enclosed connective cs =>
    ['('] :: [')'] :: connective.text.toList :: cs.map Comparison.lead
  | .isNull path => [path.toList ++ "=''".toList]
  | .isNotNull path => [path.toList ++ "!=''".toList]
  | .custom text => [text.toList]
  | .connect connective => [connective.text.toList]
  | .openGroup => [['(']]
  | .closeGroup => [[')']]

end Step

/-! ## The template -/

namespace Segment

@[simp] theorem sources_nil : sources [] = [] := rfl

@[simp] theorem sources_cons (part : Segment) (parts : List Segment) :
    sources (part :: parts) = part.source ++ sources parts := List.flatMap_cons

@[simp] theorem sources_append (xs ys : List Segment) :
    sources (xs ++ ys) = sources xs ++ sources ys := List.flatMap_append

end Segment

namespace Query

open Comparison

theorem toList_template_compare (q : Query) (c : Comparison) :
    (q.compare c).template.toList = q.template.toList ++ sources (c.parts q.useCount) := by
  rw [template_compare, comparisonText, parts, lead]
  simp [Segment.source]

theorem toList_template_compareAll (glue : String) (q : Query) (cs : List Comparison) :
    (q.compareAll glue cs).template.toList =
      q.template.toList ++ sources (partsOfAll glue.toList q.useCount cs) := by
  -- Behind the first comparison the query is any that made some already.
  have hrest : ∀ (rest : List Comparison) (q : Query),
      (rest.foldl (fun q c => (q.append glue).compare c) q).template.toList =
        q.template.toList ++ sources (partsBehind glue.toList q.useCount rest) := by
    intro rest
    induction rest with
    | nil => intro q; simp [partsBehind]
    | cons c rest ih =>
      intro q
      rw [List.foldl_cons, ih, toList_template_compare, useCount_compare, template_append]
      simp [partsBehind, Segment.source]
  cases cs with
  | nil => simp [compareAll, partsOfAll]
  | cons c rest =>
    rw [compareAll, hrest, toList_template_compare, useCount_compare]
    simp [partsOfAll]

theorem toList_template_apply (q : Query) (step : Step) :
    (q.apply step).template.toList =
      q.template.toList ++ sources (step.parts q.useCount) := by
  cases step with
  | compare c => exact toList_template_compare q c
  | enclosed connective cs =>
    rw [apply, compareEnclosed, template_append, String.toList_append,
      toList_template_compareAll]
    simp [Step.parts, Segment.source]
  | openGroup => simp [apply, openGroup, Step.parts, Segment.source]
  | closeGroup => simp [apply, closeGroup, Step.parts, Segment.source]
  | _ => simp [apply, Step.parts, Segment.source]

/-- Steps write their parts one after the other. -/
theorem toList_template_foldl_apply (q : Query) (steps : List Step) :
    (steps.foldl apply q).template.toList =
      q.template.toList ++ sources (Step.partsOfAll q.useCount steps) := by
  induction steps generalizing q with
  | nil => simp [Step.partsOfAll]
  | cons step steps ih =>
    rw [List.foldl_cons, ih, toList_template_apply, (values_apply q step).2, Step.partsOfAll,
      Segment.sources_append, List.append_assoc]

theorem toList_template_run_empty (calls : List Call) :
    (Session.run .empty calls).template.toList =
      sources (Step.partsOfAll (fun _ => 0) (Call.stepsOfAll calls)) := by
  rw [Session.run_eq_foldl, toList_template_foldl_apply]
  rfl

end Query

/-! ## Filling the parts -/

theorem Comparison.flatMap_fillWith_partsOfAll {glue : List Char} {text : String → List Char}
    {uses : String → Nat} {cs : List Comparison}
    (h : ∀ b ∈ bindings uses cs, text b.1 = b.2.literal) :
    (partsOfAll glue uses cs).flatMap (fillWith text) = inlineAll glue cs := by
  have hrest : ∀ (rest : List Comparison) (uses : String → Nat),
      (∀ b ∈ bindings uses rest, text b.1 = b.2.literal) →
        (partsBehind glue uses rest).flatMap (fillWith text) =
          rest.flatMap fun c => glue ++ c.inline := by
    intro rest
    induction rest with
    | nil => exact fun _ _ => rfl
    | cons c rest ih =>
      intro uses h
      obtain ⟨hname, hrest⟩ := List.forall_mem_cons.1 h
      simp [partsBehind, parts, lead, inline, fillWith, ih _ hrest, hname]
  cases cs with
  | nil => rfl
  | cons c rest =>
    obtain ⟨hname, hbehind⟩ := List.forall_mem_cons.1 h
    simp [partsOfAll, parts, lead, inlineAll, inline, fillWith, hrest rest _ hbehind, hname]

/-- Steps whose names stand for the literals they are bound to become what the
steps are written directly. -/
theorem Step.flatMap_fillWith_partsOfAll {text : String → List Char} {uses : String → Nat}
    {steps : List Step}
    (h : ∀ b ∈ Comparison.bindings uses (steps.flatMap comparisons), text b.1 = b.2.literal) :
    (partsOfAll uses steps).flatMap (fillWith text) = steps.flatMap inline := by
  induction steps generalizing uses with
  | nil => rfl
  | cons step steps ih =>
    rw [List.flatMap_cons, Comparison.bindings_append, List.forall_mem_append] at h
    rw [partsOfAll, List.flatMap_append, ih h.2, List.flatMap_cons]
    congr 1
    cases step with
    | compare c =>
      have hname := h.1 _ List.mem_cons_self
      simp [parts, Comparison.parts, Comparison.lead, inline, Comparison.inline, fillWith, hname]
    | enclosed connective cs =>
      have hcs : ∀ b ∈ Comparison.bindings uses cs, text b.1 = b.2.literal := h.1
      simp [parts, inline, fillWith, Comparison.flatMap_fillWith_partsOfAll hcs]
    | _ => simp [parts, inline, fillWith]

/-! ## What the parts are -/

theorem Comparison.mem_partsOfAll {glue : List Char} {uses : String → Nat}
    {cs : List Comparison} {part : Segment} (h : part ∈ partsOfAll glue uses cs) :
    part = .text glue ∨ (∃ c ∈ cs, part = .text c.lead) ∨
      ∃ b ∈ bindings uses cs, part = .placeholder b.1 := by
  have hrest : ∀ (rest : List Comparison) (uses : String → Nat),
      part ∈ partsBehind glue uses rest →
        part = .text glue ∨ (∃ c ∈ rest, part = .text c.lead) ∨
          ∃ b ∈ bindings uses rest, part = .placeholder b.1 := by
    intro rest
    induction rest with
    | nil => exact fun _ h => absurd h List.not_mem_nil
    | cons c rest ih =>
      intro uses h
      simp only [partsBehind, parts, List.cons_append, List.mem_cons, List.nil_append] at h
      rcases h with rfl | rfl | rfl | h
      · exact .inl rfl
      · exact .inr (.inl ⟨c, List.mem_cons_self, rfl⟩)
      · exact .inr (.inr ⟨_, List.mem_cons_self, rfl⟩)
      · rcases ih _ h with h | ⟨d, hd, h⟩ | ⟨b, hb, h⟩
        · exact .inl h
        · exact .inr (.inl ⟨d, List.mem_cons_of_mem c hd, h⟩)
        · exact .inr (.inr ⟨b, List.mem_cons_of_mem _ hb, h⟩)
  cases cs with
  | nil => exact absurd h List.not_mem_nil
  | cons c rest =>
    -- The first comparison has no glue in front; with it, all are alike.
    exact hrest (c :: rest) uses (List.mem_cons_of_mem _ h)

/-- Each part of steps is a fixed text of theirs or the placeholder of a name
they bind. -/
theorem Step.mem_partsOfAll {uses : String → Nat} {steps : List Step} {part : Segment}
    (h : part ∈ partsOfAll uses steps) :
    (∃ t ∈ steps.flatMap texts, part = .text t) ∨
      ∃ b ∈ Comparison.bindings uses (steps.flatMap comparisons), part = .placeholder b.1 := by
  induction steps generalizing uses with
  | nil => exact absurd h List.not_mem_nil
  | cons step steps ih =>
    rw [List.flatMap_cons, List.flatMap_cons, Comparison.bindings_append]
    rw [partsOfAll, List.mem_append] at h
    rcases h with h | h
    · have hstep : (∃ t ∈ step.texts, part = .text t) ∨
          ∃ b ∈ Comparison.bindings uses step.comparisons, part = .placeholder b.1 := by
        cases step with
        | enclosed connective cs =>
          simp only [parts, List.cons_append, List.mem_cons, List.mem_append,
            List.not_mem_nil, or_false] at h
          rcases h with rfl | h | rfl
          · exact .inl ⟨['('], by simp [texts], rfl⟩
          · rcases Comparison.mem_partsOfAll h with rfl | ⟨c, hc, rfl⟩ | h
            · exact .inl ⟨connective.text.toList, by simp [texts], rfl⟩
            · exact .inl ⟨c.lead, by simpa [texts] using .inr (.inr (.inr ⟨c, hc, rfl⟩)), rfl⟩
            · exact .inr h
          · exact .inl ⟨[')'], by simp [texts], rfl⟩
        | compare c =>
          simp only [parts, Comparison.parts, List.mem_cons, List.not_mem_nil, or_false] at h
          rcases h with rfl | rfl
          · exact .inl ⟨c.lead, by simp [texts], rfl⟩
          · exact .inr ⟨_, List.mem_cons_self, rfl⟩
        | _ => exact .inl ⟨_, List.mem_cons_self, List.mem_singleton.1 h⟩
      rcases hstep with ⟨t, ht, h⟩ | ⟨b, hb, h⟩
      · exact .inl ⟨t, List.mem_append_left _ ht, h⟩
      · exact .inr ⟨b, List.mem_append_left _ hb, h⟩
    · rcases ih h with ⟨t, ht, h⟩ | ⟨b, hb, h⟩
      · exact .inl ⟨t, List.mem_append_right _ ht, h⟩
      · exact .inr ⟨b, List.mem_append_right _ hb, h⟩

/-- A property of all fixed texts of a run: it has to hold of parentheses,
connectives, leads, null checks and custom texts. -/
theorem Call.forall_texts {P : List Char → Prop} {calls : List Call} (hopen : P ['('])
    (hclose : P [')']) (hconnect : ∀ connective : Connective, P connective.text.toList)
    (hcompared : ∀ c ∈ comparisonsOfAll calls, P c.lead)
    (hchecked : ∀ path ∈ checkedPathsOfAll calls,
      P (path.toList ++ "=''".toList) ∧ P (path.toList ++ "!=''".toList))
    (hcustom : ∀ text ∈ customTextsOfAll calls, P text.toList) :
    ∀ t ∈ (stepsOfAll calls).flatMap Step.texts, P t := by
  intro t ht
  obtain ⟨step, hstep, ht⟩ := List.mem_flatMap.1 ht
  have hcs : ∀ c ∈ step.comparisons, P c.lead := fun c hc =>
    hcompared c (mem_comparisonsOfAll hstep hc)
  cases step with
  | compare c =>
    rw [List.mem_singleton.1 ht]
    exact hcs c List.mem_cons_self
  | enclosed connective cs =>
    simp only [Step.texts, List.mem_cons, List.mem_map] at ht
    rcases ht with rfl | rfl | rfl | ⟨c, hc, rfl⟩
    · exact hopen
    · exact hclose
    · exact hconnect connective
    · exact hcs c hc
  | isNull path =>
    rw [List.mem_singleton.1 ht]
    exact (hchecked path (mem_checkedPathsOfAll hstep List.mem_cons_self)).1
  | isNotNull path =>
    rw [List.mem_singleton.1 ht]
    exact (hchecked path (mem_checkedPathsOfAll hstep List.mem_cons_self)).2
  | custom text =>
    rw [List.mem_singleton.1 ht]
    exact hcustom text (mem_customTextsOfAll hstep List.mem_cons_self)
  | connect connective =>
    rw [List.mem_singleton.1 ht]
    exact hconnect connective
  | openGroup =>
    rw [List.mem_singleton.1 ht]
    exact hopen
  | closeGroup =>
    rw [List.mem_singleton.1 ht]
    exact hclose

end FilterTemplate
