/-
  FilterTemplate.Proofs.Query.Desugaring

  Groups and lists of comparisons are sugar. Written out in plain calls, a row
  of calls stays in order, ends at the same stage and does the same to every
  session: to the query, whatever its state, and to what is reported. The
  parentheses of a list are no group for the query, those written out are; a
  group that is opened and closed again leaves the count of groups as it was,
  so the difference does not show.
-/
import FilterTemplate.Proofs.Query.Stages
import FilterTemplate.Query.Desugaring

namespace FilterTemplate

/-- The call that writes a connective. -/
def Connective.call : Connective → Call
  | .and => .and
  | .or => .or

/-- The call stands for itself: it is neither a group nor a list of comparisons,
and it writes no text that is made from a path. -/
def Call.isPlain : Call → Bool
  | .compare _ _ _ => true
  | .custom _ => true
  | .openGroup => true
  | .closeGroup => true
  | .and => true
  | .or => true
  | .build => true
  | .buildWith _ => true
  | _ => false

/-! ## One group deeper -/

namespace Query

/-- The query with one more group open. -/
def deepen (q : Query) : Query :=
  { q with depth := q.depth + 1 }

theorem openGroup_eq_deepen (q : Query) : q.openGroup = (q.append "(").deepen := rfl

theorem compareAll_deepen (glue : String) (q : Query) (cs : List Comparison) :
    q.deepen.compareAll glue cs = (q.compareAll glue cs).deepen := by
  have hrest : ∀ (rest : List Comparison) (q : Query),
      rest.foldl (fun q c => (q.append glue).compare c) q.deepen =
        (rest.foldl (fun q c => (q.append glue).compare c) q).deepen := by
    intro rest
    induction rest with
    | nil => exact fun _ => rfl
    | cons c rest ih => exact fun q => ih ((q.append glue).compare c)
  cases cs with
  | nil => rfl
  | cons c rest => exact hrest rest (q.compare c)

/-- Closing a group that is open writes a parenthesis and gives the count back. -/
theorem closeGroup_deepen (q : Query) : q.deepen.closeGroup = q.append ")" := by
  have hopen : q.deepen.depth ≠ 0 := Nat.succ_ne_zero q.depth
  rw [closeGroup, if_neg hopen]
  rfl

theorem compareEnclosed_nil (glue : String) (q : Query) :
    q.compareEnclosed glue [] = q.append "()" := by
  have htemplate : q.template ++ "(" ++ ")" = q.template ++ "()" := String.append_assoc
  rw [compareEnclosed, compareAll, append, append, append, htemplate]

end Query

/-! ## Carrying out plain calls -/

namespace Session

open Call (connected enclosed)

/-- Nothing is reported where the group to be closed is open. -/
theorem closeGroup_update_deepen (s : Session) (f : Query → Query) :
    (s.update fun q => (f q).deepen).closeGroup = s.update fun q => (f q).append ")" := by
  have hopen : (s.update fun q => (f q).deepen).query.depth ≠ 0 := Nat.succ_ne_zero _
  rw [closeGroup, if_neg hopen, update, query_update, Query.closeGroup_deepen]
  rfl

theorem perform_connective (s : Session) (connective : Connective) :
    perform s connective.call = s.update (·.append connective.text) := by
  cases connective with
  | and => rfl
  | or => rfl

/-- Single comparisons with a connective between them are made as a list is. -/
theorem performAll_connected (s : Session) (connective : Connective) (cs : List Comparison) :
    performAll s (connected connective.call cs) = s.update (·.compareAll connective.text cs) := by
  -- Each comparison behind the first is made by two calls.
  have hrest : ∀ (rest : List Comparison) (s : Session),
      performAll s (rest.flatMap fun c =>
          [connective.call, .compare c.path c.operator c.value]) =
        s.update fun q => rest.foldl (fun q c => (q.append connective.text).compare c) q := by
    intro rest
    induction rest with
    | nil => exact fun _ => rfl
    | cons c rest ih =>
      intro s
      rw [List.flatMap_cons, performAll_append, performAll, performAll, performAll,
        perform_connective, ih]
      rfl
  cases cs with
  | nil => rfl
  | cons c rest =>
    rw [connected, performAll, hrest]
    rfl

/-- A list of comparisons is a group of single ones, or an empty pair of parentheses. -/
theorem performAll_enclosed (s : Session) (connective : Connective) (cs : List Comparison) :
    performAll s (enclosed connective.call cs) =
      s.update (·.compareEnclosed connective.text cs) := by
  cases cs with
  | nil =>
    show s.update (·.append "()") = s.update (·.compareEnclosed connective.text [])
    rw [update, update, Query.compareEnclosed_nil]
  | cons c rest =>
    have hcalls : enclosed connective.call (c :: rest) =
        .openGroup :: (connected connective.call (c :: rest) ++ [.closeGroup]) := rfl
    have hopened : (perform s .openGroup).update (·.compareAll connective.text (c :: rest)) =
        s.update fun q => ((q.append "(").compareAll connective.text (c :: rest)).deepen := by
      rw [perform, update, query_update, Query.openGroup_eq_deepen, Query.compareAll_deepen]
      rfl
    rw [hcalls, performAll, performAll_append, performAll_connected, hopened]
    exact closeGroup_update_deepen s _

/-- Plain calls do what the calls do that they are written for. -/
theorem performAll_desugarAll (s : Session) (calls : List Call) :
    performAll s (Call.desugarAll calls) = performAll s calls := by
  induction calls using Call.rowInduction generalizing s with
  | nil => rfl
  | cons call calls hinner ih =>
    have hcall : performAll s call.desugar = perform s call := by
      cases call with
      | search paths value => exact performAll_enclosed s .or _
      | isIn path values => exact performAll_enclosed s .or _
      | isNotIn path values => exact performAll_enclosed s .and _
      | between path low high => exact performAll_enclosed s .and _
      | notBetween path low high => exact performAll_enclosed s .or _
      | group inner =>
        rw [Call.desugar, List.cons_append, performAll, performAll_append, hinner inner rfl]
        rfl
      | _ => rfl
    rw [Call.desugarAll, performAll_append, hcall, ih, performAll]

end Session

/-! ## The stages of plain calls -/

namespace Call

theorem check_connective (connective : Connective) :
    check .complete connective.call = .ok .condition := by
  cases connective with
  | and => rfl
  | or => rfl

theorem checkAll_enclosed (connective : Connective) (cs : List Comparison) :
    checkAll .condition 0 (enclosed connective.call cs) = .ok .complete := by
  have hrest : ∀ (rest : List Comparison) (index : Nat),
      checkAll .complete index (rest.flatMap fun c =>
        [connective.call, .compare c.path c.operator c.value]) = .ok .complete := by
    intro rest
    induction rest with
    | nil => exact fun _ => rfl
    | cons c rest ih =>
      intro index
      have hcompare : check .condition (.compare c.path c.operator c.value) = .ok .complete := rfl
      rw [List.flatMap_cons, List.cons_append, List.cons_append, List.nil_append,
        checkAll_cons (check_connective connective), checkAll_cons hcompare]
      exact ih (index + 1 + 1)
  cases cs with
  | nil => rfl
  | cons c rest =>
    have hclose : checkAll .complete 0 [.closeGroup] = .ok .complete := rfl
    exact checkAll_append (hrest rest 2) hclose

/-- Plain calls come at the right stages where the calls do that they are written for. -/
theorem checkAll_desugarAll {stage stage' : Stage} {index : Nat} {calls : List Call}
    (h : checkAll stage index calls = .ok stage') :
    checkAll stage index (desugarAll calls) = .ok stage' := by
  induction calls using rowInduction generalizing stage index stage' with
  | nil => exact h
  | cons call calls hinner ih =>
    obtain ⟨between, hcall, hcalls⟩ := exists_of_checkAll_cons h
    -- A call that writes a condition is allowed at one stage only, and so are its plain calls.
    have hcondition : ∀ {plain : List Call}, check .condition call = .ok .complete →
        check .complete call = .error [] → checkAll .condition 0 plain = .ok .complete →
          checkAll stage 0 plain = .ok between := by
      intro plain hdue hlate hplain
      cases stage with
      | condition =>
        rw [hdue] at hcall
        rw [← Except.ok.inj hcall]
        exact hplain
      | complete =>
        rw [hlate] at hcall
        exact absurd hcall (by simp)
    have hdesugared : checkAll stage 0 call.desugar = .ok between := by
      cases call with
      | search paths value => exact hcondition rfl rfl (checkAll_enclosed .or _)
      | isIn path values => exact hcondition rfl rfl (checkAll_enclosed .or _)
      | isNotIn path values => exact hcondition rfl rfl (checkAll_enclosed .and _)
      | between path low high => exact hcondition rfl rfl (checkAll_enclosed .and _)
      | notBetween path low high => exact hcondition rfl rfl (checkAll_enclosed .or _)
      | isNull path => exact hcondition rfl rfl rfl
      | isNotNull path => exact hcondition rfl rfl rfl
      | group inner =>
        obtain ⟨rfl, rfl, hgroup⟩ := exists_of_check_group hcall
        have hopen : check .condition .openGroup = .ok .condition := rfl
        have hclose : checkAll .complete 0 [.closeGroup] = .ok .complete := rfl
        rw [desugar, List.cons_append, checkAll_cons hopen]
        exact checkAll_append (checkAll_eq_ok_of_index 1 (hinner inner rfl hgroup)) hclose
      | _ => exact (checkAll_cons hcall 0 []).trans rfl
    rw [desugarAll]
    exact checkAll_append (checkAll_eq_ok_of_index index hdesugared)
      (checkAll_eq_ok_of_index 0 (ih hcalls))

theorem isPlain_of_mem_enclosed (connective : Connective) {cs : List Comparison} {call : Call}
    (h : call ∈ enclosed connective.call cs) : call.isPlain = true := by
  have hconnective : connective.call.isPlain = true := by
    cases connective with
    | and => rfl
    | or => rfl
  cases cs with
  | nil =>
    rw [enclosed, List.isEmpty_nil, if_pos rfl, List.mem_singleton] at h
    rw [h, isPlain]
  | cons c rest =>
    have hmem : call = .openGroup ∨ call = .compare c.path c.operator c.value ∨
        (∃ d ∈ rest, call = connective.call ∨ call = .compare d.path d.operator d.value) ∨
          call = .closeGroup := by
      simpa [enclosed, connected] using h
    rcases hmem with rfl | rfl | ⟨d, -, rfl | rfl⟩ | rfl
    · rfl
    · rfl
    · exact hconnective
    · rfl
    · rfl

/-- Nothing but plain calls is left. -/
theorem isPlain_of_mem_desugarAll {calls : List Call} {call : Call}
    (h : call ∈ desugarAll calls) : call.isPlain = true := by
  induction calls using rowInduction with
  | nil => exact absurd h List.not_mem_nil
  | cons first rest hinner ih =>
    rw [desugarAll, List.mem_append] at h
    rcases h with h | h
    · cases first with
      | search paths value => exact isPlain_of_mem_enclosed .or h
      | isIn path values => exact isPlain_of_mem_enclosed .or h
      | isNotIn path values => exact isPlain_of_mem_enclosed .and h
      | between path low high => exact isPlain_of_mem_enclosed .and h
      | notBetween path low high => exact isPlain_of_mem_enclosed .or h
      | group inner =>
        rw [desugar, List.cons_append, List.mem_cons, List.mem_append, List.mem_singleton] at h
        rcases h with rfl | h | rfl
        · rfl
        · exact hinner inner rfl h
        · rfl
      | _ =>
        obtain rfl := List.mem_singleton.1 h
        rfl
    · exact ih h

end Call

/-- Groups, lists of comparisons and null checks are sugar. Written out in plain
calls, a row of calls in order is in order too and ends at the same stage, and
on every query, reached by calls or not, it makes the same query and the same
reports: the same template, values in the same order, uses of paths, depth,
place of the first unmatched closing, and the same warnings. -/
theorem Session.performAll_desugarAll_of_checkAll (s : Session) (calls : List Call)
    (stage : Stage) (h : Call.checkAll .condition 0 calls = .ok stage) :
    (∀ call ∈ Call.desugarAll calls, call.isPlain = true) ∧
      Call.checkAll .condition 0 (Call.desugarAll calls) = .ok stage ∧
      performAll s (Call.desugarAll calls) = performAll s calls :=
  ⟨fun _ hcall => Call.isPlain_of_mem_desugarAll hcall, Call.checkAll_desugarAll h,
    performAll_desugarAll s calls⟩

/-- On a query that has a group closed without being open, a group whose calls
close it, a list, an empty list, a search that skips a path and a null check.
The end of the group closes none, so it warns, and the first place is kept. -/
theorem Session.performAll_desugarAll_of_checkAll_on_unbalanced :
    let s : Session := ⟨⟨"b)", .empty, .empty, 0, some 1⟩, [.unmatchedClose 1]⟩
    let calls : List Call :=
      [.group [.isIn "a" [.int 1, .int 2], .closeGroup], .and, .isNotIn "a" [], .or,
        .search ["t", "", "a"] (.string "x"), .and, .isNull "c"]
    let plain : List Call :=
      [.openGroup, .openGroup, .compare "a" .equal (.int 1), .or, .compare "a" .equal (.int 2),
        .closeGroup, .closeGroup, .closeGroup, .and, .custom "()", .or, .openGroup,
        .compare "t" .like (.string "x"), .or, .compare "a" .like (.string "x"), .closeGroup, .and,
        .custom "c=''"]
    Call.checkAll .condition 0 calls = .ok .complete ∧
      Call.checkAll .condition 0 plain = .ok .complete ∧
      performAll s plain = performAll s calls ∧
      (performAll s plain).query.template =
        "b)((a=\x7b:a1\x7d || a=\x7b:a2\x7d))) && () || (t~\x7b:t1\x7d || a~\x7b:a3\x7d) && c=''" ∧
      (performAll s plain).query.values.keys = ["a1", "a2", "t1", "a3"] ∧
      (performAll s plain).query.depth = 0 ∧
      (performAll s plain).query.unmatchedClose = some 1 ∧
      (performAll s plain).log = [.unmatchedClose 1, .unmatchedClose 24] := by
  intro s calls plain
  have hcalls : Call.checkAll .condition 0 calls = .ok .complete := rfl
  have hplain : Call.desugarAll calls = plain := by
    simp [calls, plain, Call.desugarAll, Call.desugar, Call.enclosed, Call.connected,
      Call.comparisons]
  obtain ⟨-, hstages, hsame⟩ := performAll_desugarAll_of_checkAll s calls .complete hcalls
  rw [hplain] at hstages hsame
  exact ⟨hcalls, hstages, hsame, by decide +kernel, by decide +kernel, by decide +kernel,
    by decide +kernel, by decide +kernel⟩

end FilterTemplate
