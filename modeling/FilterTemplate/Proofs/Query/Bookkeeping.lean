/-
  FilterTemplate.Proofs.Query.Bookkeeping

  What a query keeps of its comparisons. The comparisons made so far say all of
  it by counting: how often each path was compared, the name of each comparison
  in the template, the names that have values and their order, and the value of
  each. A call adds behind what is there, and takes away or replaces nothing
  but the value of a name that it generates once more.
-/
import FilterTemplate.Proofs.Query.Parts
import FilterTemplate.Proofs.Query.Progress

namespace FilterTemplate

open Segment (sources)

/-! ## Names by counting -/

namespace Comparison

/-- How many of the comparisons are of a path. -/
def count (path : String) (us : List Comparison) : Nat :=
  us.countP fun u => u.path = path

/-- The names of comparisons: of each the path, and behind it the number of
comparisons of that path up to this one. -/
def names (us : List Comparison) : List String :=
  us.mapIdx fun i u => Query.paramName u.path (count u.path (us.take (i + 1)))

theorem count_cons (path : String) (u : Comparison) (us : List Comparison) :
    count path (u :: us) = count path us + if u.path = path then 1 else 0 := by
  rw [count, List.countP_cons, count]
  simp

/-- The names bound are those given by counting on from the uses before. -/
theorem map_fst_bindings (uses : String → Nat) (us : List Comparison) :
    (bindings uses us).map Prod.fst = us.mapIdx fun i u =>
      Query.paramName u.path (uses u.path + count u.path (us.take (i + 1))) := by
  induction us generalizing uses with
  | nil => rfl
  | cons u us ih =>
    have hfirst : count u.path [u] = 1 := by
      rw [count_cons, if_pos rfl]
      rfl
    have hrest : ∀ (i : Nat) (v : Comparison),
        countUse uses u.path v.path + count v.path (us.take i) =
          uses v.path + count v.path (u :: us.take i) := by
      intro i v
      rw [count_cons, countUse]
      by_cases hpath : v.path = u.path
      · rw [if_pos hpath, if_pos hpath.symm, hpath]
        omega
      · rw [if_neg hpath, if_neg (Ne.symm hpath)]
        omega
    rw [bindings, List.map_cons, ih, List.mapIdx_cons, List.take_succ_cons, List.take_zero, hfirst]
    simp only [hrest, List.take_succ_cons]

theorem map_fst_bindings_zero (us : List Comparison) :
    (bindings (fun _ => 0) us).map Prod.fst = names us := by
  rw [map_fst_bindings, names]
  simp only [Nat.zero_add]

theorem map_snd_bindings (uses : String → Nat) (us : List Comparison) :
    (bindings uses us).map Prod.snd = us.map value := by
  induction us generalizing uses with
  | nil => rfl
  | cons u us ih => rw [bindings, List.map_cons, ih, List.map_cons]

/-- What the comparison at a place binds is its name and its value. -/
theorem getElem?_bindings_zero {us : List Comparison} {i : Nat} (hi : i < us.length)
    {name : String} (h : (names us)[i]? = some name) :
    (bindings (fun _ => 0) us)[i]? = some (name, us[i].value) := by
  have hnames : ((bindings (fun _ => 0) us)[i]?).map Prod.fst = some name := by
    rw [← List.getElem?_map, map_fst_bindings_zero, h]
  have hvalues : ((bindings (fun _ => 0) us)[i]?).map Prod.snd = some us[i].value := by
    rw [← List.getElem?_map, map_snd_bindings, List.getElem?_map, List.getElem?_eq_getElem hi,
      Option.map_some]
  obtain ⟨b, hb, hname⟩ := Option.map_eq_some_iff.1 hnames
  rw [hb, Option.map_some] at hvalues
  rw [hb, ← hname, ← Option.some.inj hvalues]

/-- In the table of what comparisons bind a name has the value of its last one. -/
theorem get?_ofList_bindings {us : List Comparison} {i : Nat} (hi : i < us.length)
    {name : String} (hname : (names us)[i]? = some name)
    (hlast : name ∉ (names us).drop (i + 1)) :
    (Table.ofList (bindings (fun _ => 0) us)).get? name = some us[i].value := by
  obtain ⟨hlength, heq⟩ := List.getElem?_eq_some_iff.1 (getElem?_bindings_zero hi hname)
  have hlater : name ∉ ((bindings (fun _ => 0) us).drop (i + 1)).map Prod.fst := by
    rwa [List.map_drop, map_fst_bindings_zero]
  -- The list that is set, split at this comparison.
  rw [← List.take_append_drop i (bindings (fun _ => 0) us), List.drop_eq_getElem_cons hlength, heq]
  exact Table.get?_extend_append_cons hlater

theorem length_names (us : List Comparison) : (names us).length = us.length :=
  List.length_mapIdx

/-- Going on with more comparisons generates the names that counting on gives. -/
theorem drop_names_append (us vs : List Comparison) :
    (names (us ++ vs)).drop us.length =
      (bindings (countUses (fun _ => 0) us) vs).map Prod.fst := by
  have hnames := map_fst_bindings_zero (us ++ vs)
  rw [bindings_append, List.map_append, map_fst_bindings_zero] at hnames
  rw [← hnames, List.drop_left' (length_names us)]

/-! ## Counters -/

/-- The counters of paths after comparisons. -/
def countIn (counters : Table Nat) (us : List Comparison) : Table Nat :=
  us.foldl (fun t u => t.insert u.path ((t.get? u.path).getD 0 + 1)) counters

theorem countIn_append (counters : Table Nat) (us vs : List Comparison) :
    countIn counters (us ++ vs) = countIn (countIn counters us) vs := by
  rw [countIn, List.foldl_append]
  rfl

/-- A path without comparisons has the counter that it had, and no other. -/
theorem get?_countIn (counters : Table Nat) (us : List Comparison) (path : String) :
    (countIn counters us).get? path =
      if count path us = 0 then counters.get? path
      else some ((counters.get? path).getD 0 + count path us) := by
  induction us generalizing counters with
  | nil => rfl
  | cons u us ih =>
    rw [countIn, List.foldl_cons]
    have hnext := ih (counters.insert u.path ((counters.get? u.path).getD 0 + 1))
    rw [countIn] at hnext
    rw [hnext, Table.get?_insert, count_cons]
    by_cases hpath : u.path = path
    · rw [if_pos hpath, if_pos hpath.symm, hpath, Option.getD_some, if_neg (Nat.succ_ne_zero _)]
      split
      · next hzero => rw [hzero]
      · refine congrArg some ?_
        omega
    · rw [if_neg hpath, if_neg (Ne.symm hpath), Nat.add_zero]

end Comparison

/-! ## Placeholders -/

/-- The name of a part that is a placeholder. -/
def Segment.name? : Segment → Option String
  | .text _ => none
  | .placeholder name => some name

theorem Comparison.filterMap_name?_partsOfAll (glue : List Char) (uses : String → Nat)
    (us : List Comparison) :
    (partsOfAll glue uses us).filterMap Segment.name? = (bindings uses us).map Prod.fst := by
  have hrest : ∀ (rest : List Comparison) (uses : String → Nat),
      (partsBehind glue uses rest).filterMap Segment.name? =
        (bindings uses rest).map Prod.fst := by
    intro rest
    induction rest with
    | nil => exact fun _ => rfl
    | cons u rest ih =>
      intro uses
      rw [bindings, List.map_cons, ← ih]
      rfl
  cases us with
  | nil => rfl
  | cons u rest =>
    rw [bindings, List.map_cons, ← hrest]
    rfl

/-- The placeholders that steps write have the names that they bind. -/
theorem Step.filterMap_name?_partsOfAll (uses : String → Nat) (steps : List Step) :
    (partsOfAll uses steps).filterMap Segment.name? =
      (Comparison.bindings uses (steps.flatMap comparisons)).map Prod.fst := by
  induction steps generalizing uses with
  | nil => rfl
  | cons step steps ih =>
    have hstep : (step.parts uses).filterMap Segment.name? =
        (Comparison.bindings uses step.comparisons).map Prod.fst := by
      cases step with
      | enclosed connective cs =>
        have hends : (parts uses (.enclosed connective cs)).filterMap Segment.name? =
            (Comparison.partsOfAll connective.text.toList uses cs).filterMap Segment.name? := by
          rw [parts, List.cons_append, List.filterMap_cons_none rfl, List.filterMap_append]
          exact List.append_nil _
        rw [hends]
        exact Comparison.filterMap_name?_partsOfAll _ uses cs
      | _ => rfl
    rw [partsOfAll, List.filterMap_append, hstep, ih, List.flatMap_cons,
      Comparison.bindings_append, List.map_append]

/-! ## Runs -/

namespace Query

open Comparison (bindings countIn)

theorem uses_compareAll (glue : String) (q : Query) (cs : List Comparison) :
    (q.compareAll glue cs).uses = countIn q.uses cs :=
  compareAll_eq_foldl (f := Query.uses) (fun _ _ => rfl) (fun _ _ => rfl) glue q cs

theorem uses_foldl_apply (q : Query) (steps : List Step) :
    (steps.foldl apply q).uses = countIn q.uses (steps.flatMap Step.comparisons) := by
  induction steps generalizing q with
  | nil => rfl
  | cons step steps ih =>
    have hstep : (q.apply step).uses = countIn q.uses step.comparisons := by
      cases step with
      | enclosed connective cs => exact uses_compareAll connective.text (q.append "(") cs
      | _ => rfl
    rw [List.foldl_cons, ih, hstep, List.flatMap_cons, Comparison.countIn_append]

end Query

namespace Session

open Comparison (bindings countIn)

/-- Calls do to the values and counters what their comparisons do, one after the other. -/
theorem values_performAll (s : Session) (calls : List Call) :
    (performAll s calls).query.values =
        s.query.values.extend (bindings s.query.useCount (Call.comparisonsOfAll calls)) ∧
      (performAll s calls).query.uses = countIn s.query.uses (Call.comparisonsOfAll calls) := by
  rw [query_performAll, ← Call.flatMap_comparisons_stepsOfAll]
  exact ⟨(Query.values_foldl_apply s.query _).1, Query.uses_foldl_apply s.query _⟩

theorem prefix_template_performAll (s : Session) (calls : List Call) :
    s.query.template.toList <+: (performAll s calls).query.template.toList := by
  rw [query_performAll, Query.toList_template_foldl_apply]
  exact List.prefix_append _ _

end Session

/-! ## What a query keeps -/

open Comparison (bindings count countIn names)

/-- What a query keeps of comparisons is what counting them gives. -/
structure Query.Keeps (q : Query) (us : List Comparison) : Prop where
  /-- The counter of a path is the number of its comparisons; without any it has none. -/
  uses : ∀ path, q.uses.get? path = if count path us = 0 then none else some (count path us)
  /-- The template has, among its texts, the placeholders of the names in order. -/
  placeholders : ∃ parts, q.template.toList = sources parts ∧
    parts.filterMap Segment.name? = names us
  /-- The names with values are those of the comparisons in the order of their first one. -/
  keys : q.values.keys = (names us).eraseDups
  nodup : q.values.keys.Nodup
  /-- A name has the value of its last comparison. -/
  values : ∀ i (hi : i < us.length), ∀ name, (names us)[i]? = some name →
    name ∉ (names us).drop (i + 1) → q.values.get? name = some us[i].value

/-- The query `q'` is `q` with something behind it: nothing is taken away, and
no value is replaced but those of the names in the list. -/
structure Query.Extends (q q' : Query) (replaced : List String) : Prop where
  template : q.template.toList <+: q'.template.toList
  keys : q.values.keys <+: q'.values.keys
  values : ∀ name ∈ q.values.keys, name ∉ replaced → q'.values.get? name = q.values.get? name

namespace Session

theorem keeps_performAll_start (calls : List Call) :
    (performAll .start calls).query.Keeps (Call.comparisonsOfAll calls) where
  uses := by
    intro path
    rw [(values_performAll .start calls).2, Comparison.get?_countIn]
    have hnone : start.query.uses.get? path = none := rfl
    rw [hnone, Option.getD_none, Nat.zero_add]
  placeholders := by
    refine ⟨_, Query.toList_template_run_empty calls, ?_⟩
    rw [Step.filterMap_name?_partsOfAll, Call.flatMap_comparisons_stepsOfAll,
      Comparison.map_fst_bindings_zero]
  keys := by
    have hvalues := Query.values_run_empty calls
    rw [← Comparison.map_fst_bindings_zero, ← Table.keys_ofList, ← hvalues]
    rfl
  nodup := Table.nodup_keys _
  values := by
    intro i hi name hname hlast
    have hvalues := congrArg (Table.get? · name) (Query.values_run_empty calls)
    exact hvalues.trans (Comparison.get?_ofList_bindings hi hname hlast)

theorem useCount_performAll_start (calls : List Call) :
    (performAll .start calls).query.useCount =
      Comparison.countUses (fun _ => 0) (Call.comparisonsOfAll calls) := by
  rw [query_performAll, ← Call.flatMap_comparisons_stepsOfAll]
  exact (Query.values_foldl_apply _ _).2

/-- A call replaces no values but those of the names that its comparisons generate. -/
theorem extends_perform (s : Session) (call : Call) :
    s.query.Extends (perform s call).query
      ((bindings s.query.useCount call.comparisons).map Prod.fst) := by
  have hvalues : (perform s call).query.values =
      s.query.values.extend (bindings s.query.useCount call.comparisons) := by
    have hrow := (values_performAll s [call]).1
    rwa [Call.comparisonsOfAll, Call.comparisonsOfAll, List.append_nil] at hrow
  refine ⟨prefix_template_performAll s [call], ?_, fun name _ hname => ?_⟩
  · rw [hvalues]
    exact Table.prefix_keys_extend _ _
  · rw [hvalues, Table.get?_extend_of_not_mem hname]

/-- At every moment of chains of calls on one query, in the middle of groups
too, the query keeps of the comparisons made by then what counting them gives.
Whatever call comes next adds behind the template and the names; a value that
is there changes only if the call generates its name once more. A call without
comparisons binds nothing and moves no counter, and a group binds what its calls
bind. -/
theorem keeps_of_reaches (chains : List (List Call)) (calls made : List Call) (t : Session)
    (h : Reaches (chains.foldl performAll .start) calls made t) :
    let us := Call.comparisonsOfAll (chains.flatten ++ made)
    t.query.Keeps us ∧
      (∀ call : Call,
        t.query.Extends (perform t call).query
            ((names (us ++ call.comparisons)).drop us.length) ∧
          (call.comparisons = [] → (perform t call).query.values = t.query.values ∧
            (perform t call).query.uses = t.query.uses)) ∧
      ∀ inner : List Call,
        (perform t (.group inner)).query.values = (performAll t inner).query.values ∧
          (perform t (.group inner)).query.uses = (performAll t inner).query.uses := by
  intro us
  have ht : t = performAll .start (chains.flatten ++ made) := h.eq_performAll_flatten
  have hrow : ∀ call : Call, Call.comparisonsOfAll [call] = call.comparisons := by
    intro call
    rw [Call.comparisonsOfAll, Call.comparisonsOfAll, List.append_nil]
  refine ⟨ht ▸ keeps_performAll_start _, fun call => ⟨?_, fun hnone => ?_⟩, fun inner => ?_⟩
  · have huses : t.query.useCount = Comparison.countUses (fun _ => 0) us := by
      rw [ht]
      exact useCount_performAll_start _
    rw [Comparison.drop_names_append, ← huses]
    exact extends_perform t call
  · obtain ⟨hvalues, huses⟩ := values_performAll t [call]
    rw [hrow, hnone] at hvalues huses
    exact ⟨hvalues, huses⟩
  · obtain ⟨hvalues, huses⟩ := values_performAll t [.group inner]
    obtain ⟨hinner, hinner'⟩ := values_performAll t inner
    rw [hrow] at hvalues huses
    rw [hinner, hinner']
    exact ⟨hvalues, huses⟩

/-- The eleventh `age` and the first `age1` have one name. A moment inside a
group, after both: the name stands at its first place with the later value, and
a twelfth `age` leaves that value alone. -/
theorem keeps_of_reaches_with_shared_name :
    let chains : List (List Call) := [[.equal "age" (.int 0), .and]]
    let many : Call := .isIn "age" [.int 1, .int 2, .int 3, .int 4, .int 5, .int 6, .int 7, .int 8,
      .int 9, .int 10]
    let made : List Call := [.openGroup, many, .or, .equal "age1" (.int 999)]
    let inner : List Call := [many, .or, .equal "age1" (.int 999), .and, .equal "age" (.int 11)]
    ∃ t, Reaches (chains.foldl performAll .start) [.group inner] made t ∧
      t.query.uses.get? "age" = some 11 ∧ t.query.uses.get? "age1" = some 1 ∧
      t.query.values.keys = ["age1", "age2", "age3", "age4", "age5", "age6", "age7", "age8", "age9",
        "age10", "age11"] ∧
      t.query.values.get? "age11" = some (.int 999) ∧
      (perform t (.equal "age" (.int 11))).query.values.get? "age11" = some (.int 999) := by
  intro chains many made inner
  have hreaches : Reaches (chains.foldl performAll .start) [.group inner] made _ :=
    .inside (.next (.next (.next .here)))
  obtain ⟨hkeeps, hcalls, -⟩ := keeps_of_reaches chains _ made _ hreaches
  have hkeys := hkeeps.keys
  have hvalue := hkeeps.values 11 (by decide +kernel) "age11" (by decide +kernel)
    (by decide +kernel)
  obtain ⟨hextends, -⟩ := hcalls (.equal "age" (.int 11))
  have hlist : (names (Call.comparisonsOfAll (chains.flatten ++ made))).eraseDups =
      ["age1", "age2", "age3", "age4", "age5", "age6", "age7", "age8", "age9", "age10", "age11"] := by
    decide +kernel
  rw [hlist] at hkeys
  have hlater := hextends.values "age11" (by rw [hkeys]; decide) (by decide +kernel)
  refine ⟨_, hreaches, ?_, ?_, hkeys, hvalue, hlater.trans hvalue⟩
  · rw [hkeeps.uses]
    decide +kernel
  · rw [hkeeps.uses]
    decide +kernel

end Session

end FilterTemplate
