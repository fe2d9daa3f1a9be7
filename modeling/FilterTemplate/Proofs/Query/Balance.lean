/-
  FilterTemplate.Proofs.Query.Balance

  What the openings and closings of a run decide. A query counts the groups
  that are open and never counts below none, keeps the place of the first
  closing that found none open, and warns of each. The totals of the moves made
  say all of this at every moment of a run, and whether the query is built
  depends on nothing else.
-/
import FilterTemplate.Proofs.Query.Parts
import FilterTemplate.Proofs.Query.Progress
import FilterTemplate.Proofs.Query.Totals

namespace FilterTemplate

open GroupMove (depthAfter depthAfter_append unmatchedFrom unmatchedFrom_append)

/-! ## Places in a text -/

namespace Text

/-- The character stands in the text at an offset in bytes. -/
def HasAt (s : String) (offset : Nat) (c : Char) : Prop :=
  ∃ front back : String, s = front ++ String.singleton c ++ back ∧ front.utf8ByteSize = offset

variable {s : String} {offset : Nat} {c : Char}

theorem HasAt.append (h : HasAt s offset c) (t : String) : HasAt (s ++ t) offset c := by
  obtain ⟨front, back, rfl, hsize⟩ := h
  exact ⟨front, back ++ t, String.append_assoc, hsize⟩

theorem hasAt_append_singleton (s : String) (c : Char) :
    HasAt (s ++ String.singleton c) s.utf8ByteSize c :=
  ⟨s, "", String.append_empty.symm, rfl⟩

theorem HasAt.lt (h : HasAt s offset c) : offset < s.utf8ByteSize := by
  obtain ⟨front, back, rfl, rfl⟩ := h
  have hpos := c.utf8Size_pos
  rw [String.utf8ByteSize_append, String.utf8ByteSize_append, String.utf8ByteSize_singleton]
  omega

end Text

open Text (HasAt)

/-- The parenthesis that a move writes. -/
def GroupMove.parenthesis : GroupMove → Char
  | .opened _ => '('
  | .closed _ => ')'

/-! ## Groups step by step -/

/-- The step opens or closes a group. -/
def Step.isGroupMove : Step → Bool
  | .openGroup => true
  | .closeGroup => true
  | _ => false

namespace Query

theorem depth_compareAll (glue : String) (q : Query) (cs : List Comparison) :
    (q.compareAll glue cs).depth = q.depth ∧
      (q.compareAll glue cs).unmatchedClose = q.unmatchedClose :=
  ⟨compareAll_eq_self (f := depth) (fun _ _ => rfl) (fun _ _ => rfl) glue q cs,
    compareAll_eq_self (f := unmatchedClose) (fun _ _ => rfl) (fun _ _ => rfl) glue q cs⟩

/-- A step that neither opens nor closes a group leaves the groups alone. -/
theorem depth_apply {step : Step} (hstep : step.isGroupMove = false) (q : Query) :
    (q.apply step).depth = q.depth ∧ (q.apply step).unmatchedClose = q.unmatchedClose := by
  cases step with
  | enclosed connective cs => exact depth_compareAll connective.text (q.append "(") cs
  | openGroup => exact absurd hstep.symm Bool.false_ne_true
  | closeGroup => exact absurd hstep.symm Bool.false_ne_true
  | _ => exact ⟨rfl, rfl⟩

/-- Every step writes behind the template. -/
theorem exists_template_apply_eq (q : Query) (step : Step) :
    ∃ text, (q.apply step).template = q.template ++ text := by
  refine ⟨String.ofList (Segment.sources (step.parts q.useCount)), ?_⟩
  rw [← String.toList_inj, toList_template_apply, String.toList_append, String.toList_ofList]

end Query

namespace Session

/-- The warnings reported. -/
def warnings (s : Session) : List Event :=
  s.log.filter fun e => e.level = .warning

@[simp] theorem warnings_update (s : Session) (f : Query → Query) :
    (s.update f).warnings = s.warnings := rfl

theorem warnings_report (s : Session) (e : Event) :
    (s.report e).warnings = s.warnings ++ if e.level = .warning then [e] else [] := by
  rw [warnings, report, List.filter_append, warnings]
  by_cases he : e.level = .warning
  · rw [List.filter_cons_of_pos (by simpa using he), if_pos he, List.filter_nil]
  · rw [List.filter_cons_of_neg (by simpa using he), if_neg he, List.filter_nil]

/-- The session `t` comes from `s` by the moves: what `t` has of groups is what
`s` has, carried on over the moves, and each move wrote its parenthesis behind
the template of `s`. -/
structure Follows (s : Session) (moves : List GroupMove) (t : Session) : Prop where
  depth : t.query.depth = depthAfter s.query.depth moves
  unmatchedClose : t.query.unmatchedClose =
    s.query.unmatchedClose.or (unmatchedFrom s.query.depth moves).head?
  warnings : t.warnings =
    s.warnings ++ (unmatchedFrom s.query.depth moves).map Event.unmatchedClose
  template : ∃ text, t.query.template = s.query.template ++ text
  places : ∀ m ∈ moves, s.query.template.utf8ByteSize ≤ m.offset ∧
    HasAt t.query.template m.offset m.parenthesis
  increasing : moves.Pairwise fun m n => m.offset < n.offset

namespace Follows

variable {s t u : Session} {xs ys : List GroupMove}

theorem trans (h : Follows s xs t) (h' : Follows t ys u) : Follows s (xs ++ ys) u where
  depth := by rw [h'.depth, h.depth, depthAfter_append]
  unmatchedClose := by
    rw [h'.unmatchedClose, h.unmatchedClose, h.depth, unmatchedFrom_append, List.head?_append,
      Option.or_assoc]
  warnings := by
    rw [h'.warnings, h.warnings, h.depth, unmatchedFrom_append, List.map_append,
      List.append_assoc]
  template := by
    obtain ⟨text, htext⟩ := h.template
    obtain ⟨text', htext'⟩ := h'.template
    exact ⟨text ++ text', by rw [htext', htext, String.append_assoc]⟩
  places := by
    obtain ⟨text, htext⟩ := h.template
    obtain ⟨text', htext'⟩ := h'.template
    intro m hm
    rcases List.mem_append.1 hm with hm | hm
    · obtain ⟨hle, hat⟩ := h.places m hm
      exact ⟨hle, htext' ▸ hat.append text'⟩
    · obtain ⟨hle, hat⟩ := h'.places m hm
      rw [htext, String.utf8ByteSize_append] at hle
      exact ⟨by omega, hat⟩
  increasing := by
    refine List.pairwise_append.2 ⟨h.increasing, h'.increasing, fun m hm n hn => ?_⟩
    -- The earlier move is inside the template behind which the later one is written.
    have hinside := (h.places m hm).2.lt
    have hbehind := (h'.places n hn).1
    omega

/-- What changes nothing about groups and warns of nothing makes no move. -/
theorem of_same (hdepth : t.query.depth = s.query.depth)
    (hclose : t.query.unmatchedClose = s.query.unmatchedClose)
    (hwarnings : t.warnings = s.warnings)
    (htemplate : ∃ text, t.query.template = s.query.template ++ text) : Follows s [] t where
  depth := hdepth
  unmatchedClose := by rw [hclose, unmatchedFrom, List.head?_nil, Option.or_none]
  warnings := by rw [hwarnings, unmatchedFrom, List.map_nil, List.append_nil]
  template := htemplate
  places := fun _ hm => absurd hm List.not_mem_nil
  increasing := List.Pairwise.nil

theorem update_apply (s : Session) {step : Step} (hstep : step.isGroupMove = false) :
    Follows s [] (s.update (·.apply step)) := by
  obtain ⟨hdepth, hunmatched⟩ := Query.depth_apply hstep s.query
  exact of_same hdepth hunmatched rfl (Query.exists_template_apply_eq s.query step)

/-- A report that is no warning makes no move. -/
theorem report (s : Session) {e : Event} (he : e.level ≠ .warning) : Follows s [] (s.report e) := by
  refine of_same rfl rfl ?_ ⟨"", String.append_empty.symm⟩
  rw [warnings_report, if_neg he, List.append_nil]

theorem refl (s : Session) : Follows s [] s :=
  of_same rfl rfl rfl ⟨"", String.append_empty.symm⟩

theorem openGroup (s : Session) :
    Follows s [.opened s.query.template.utf8ByteSize] (s.update Query.openGroup) where
  depth := rfl
  unmatchedClose := Option.or_none.symm
  warnings := (List.append_nil _).symm
  template := ⟨"(", rfl⟩
  places := by
    intro m hm
    rw [List.mem_singleton.1 hm]
    exact ⟨Nat.le_refl _, Text.hasAt_append_singleton s.query.template '('⟩
  increasing := List.pairwise_singleton _ _

theorem closeGroup (s : Session) :
    Follows s [.closed s.query.template.utf8ByteSize] s.closeGroup where
  depth := by
    rw [query_closeGroup]
    rfl
  unmatchedClose := by
    rw [query_closeGroup, Query.closeGroup, GroupMove.unmatchedFrom_closed]
    cases s.query.unmatchedClose with
    | none => split <;> rfl
    | some offset => split <;> rfl
  warnings := by
    rw [Session.closeGroup, GroupMove.unmatchedFrom_closed]
    split
    · -- One more warning, with the place of this closing.
      rw [warnings_update, warnings_report]
      rfl
    · rw [warnings_update, List.map_nil, List.append_nil]
  template := by
    rw [query_closeGroup]
    exact ⟨")", rfl⟩
  places := by
    intro m hm
    rw [List.mem_singleton.1 hm, query_closeGroup]
    exact ⟨Nat.le_refl _, Text.hasAt_append_singleton s.query.template ')'⟩
  increasing := List.pairwise_singleton _ _

end Follows

/-! ## Runs -/

/-- Calls lead on by their openings and closings. -/
theorem follows_performAll (s : Session) (calls : List Call) :
    Follows s (movesOfAll s calls) (performAll s calls) := by
  induction calls using Call.rowInduction generalizing s with
  | nil => exact .refl s
  | cons call calls hinner ih =>
    have hwrites : ∀ step : Step, step.isGroupMove = false →
        perform s call = s.update (·.apply step) → Follows s [] (perform s call) := by
      intro step hstep hperform
      rw [hperform]
      exact .update_apply s hstep
    have hcall : Follows s (moves s call) (perform s call) := by
      cases call with
      | openGroup => exact .openGroup s
      | closeGroup => exact .closeGroup s
      | group inner =>
        have hopened := Follows.openGroup s
        have hends := (hinner inner rfl (s.update Query.openGroup)).trans (.closeGroup _)
        exact hopened.trans hends
      | build =>
        rw [perform, reportBuild]
        split
        · exact .refl s
        · exact .report s (by simp [Event.level])
      | buildWith render =>
        rw [perform, reportRendering]
        split
        · exact .refl s
        · exact .report s (by simp [Event.level])
      | compare path op value => exact hwrites (.compare ⟨path, op, value⟩) rfl rfl
      | search paths value => exact hwrites (.enclosed .or _) rfl rfl
      | isIn path values => exact hwrites (.enclosed .or _) rfl rfl
      | isNotIn path values => exact hwrites (.enclosed .and _) rfl rfl
      | between path low high => exact hwrites (.enclosed .and _) rfl rfl
      | notBetween path low high => exact hwrites (.enclosed .or _) rfl rfl
      | isNull path => exact hwrites (.isNull path) rfl rfl
      | isNotNull path => exact hwrites (.isNotNull path) rfl rfl
      | custom text => exact hwrites (.custom text) rfl rfl
      | and => exact hwrites (.connect .and) rfl rfl
      | or => exact hwrites (.connect .or) rfl rfl
    exact hcall.trans (ih (perform s call))

end Session

/-! ## What is built -/

namespace Query

variable {q : Query}

theorem build_of_unmatchedClose {offset : Nat} (h : q.unmatchedClose = some offset) :
    q.build = .error (.unmatchedClose offset) ∧
      ∀ render, q.buildWith render = .error (.unmatchedClose offset) := by
  have himbalance : q.imbalance? = some (.unmatchedClose offset) := by rw [imbalance?, h]
  refine ⟨by rw [build, himbalance], fun render => ?_⟩
  rw [buildWith, himbalance]

theorem build_of_depth_ne_zero (h : q.unmatchedClose = none) (hdepth : q.depth ≠ 0) :
    q.build = .error (.unclosedGroup q.depth) ∧
      ∀ render, q.buildWith render = .error (.unclosedGroup q.depth) := by
  have himbalance : q.imbalance? = some (.unclosedGroup q.depth) := by
    rw [imbalance?, h]
    exact if_neg hdepth
  refine ⟨by rw [build, himbalance], fun render => ?_⟩
  rw [buildWith, himbalance]

theorem build_of_depth_eq_zero (h : q.unmatchedClose = none) (hdepth : q.depth = 0) :
    q.build = .ok ⟨q.template, q.values⟩ ∧
      ∀ render, q.buildWith render = .ok (Prepared.renderWith ⟨q.template, q.values⟩ render) := by
  have himbalance : q.imbalance? = none := by
    rw [imbalance?, h]
    exact if_pos hdepth
  exact ⟨by rw [build, himbalance], buildWith_of_imbalance?_eq_none himbalance⟩

end Query

namespace Session

open GroupMove (total totals least)

/-- The openings and closings made so far account for what a session has of
groups, and for what is built. -/
structure AccountedFor (s : Session) (moves : List GroupMove) : Prop where
  /-- The depth is the total above the least total so far, which is zero or less. -/
  depth : (s.query.depth : Int) = total moves - least moves
  /-- No place is kept as long as no total was negative. -/
  unmatchedClose_none : s.query.unmatchedClose = none ↔ ∀ n ∈ totals moves, 0 ≤ n
  /-- The place kept is that of the closing that made a total negative first. -/
  unmatchedClose_some : ∀ offset, s.query.unmatchedClose = some offset ↔
    ∃ before after, moves = before ++ .closed offset :: after ∧
      (∀ n ∈ totals before, 0 ≤ n) ∧ total (before ++ [.closed offset]) < 0
  /-- At the place of each move the template has its parenthesis. -/
  places : ∀ m ∈ moves, HasAt s.query.template m.offset m.parenthesis
  /-- The warnings are those of the closings made at depth zero, where the total
  was the least so far. Their places increase, and the first of them is kept. -/
  warnings : ∃ offsets : List Nat, s.warnings = offsets.map Event.unmatchedClose ∧
    (∀ offset, offset ∈ offsets ↔
      ∃ before after, moves = before ++ .closed offset :: after ∧ total before = least before) ∧
    offsets.Pairwise (· < ·) ∧ offsets.head? = s.query.unmatchedClose
  /-- A place that is kept has a closing parenthesis. It is kept whatever
  follows, and nothing is built any more. -/
  unmatched : ∀ offset, s.query.unmatchedClose = some offset →
    HasAt s.query.template offset ')' ∧ ∀ later : List Call,
      let t := performAll s later
      t.query.unmatchedClose = some offset ∧ t.query.build = .error (.unmatchedClose offset) ∧
        ∀ render, t.query.buildWith render = .error (.unmatchedClose offset)
  /-- Otherwise nothing is built exactly if groups are open. -/
  unclosed : s.query.unmatchedClose = none →
    (s.query.build = .error (.unclosedGroup s.query.depth) ↔ s.query.depth ≠ 0) ∧
      ∀ render, s.query.buildWith render = .error (.unclosedGroup s.query.depth) ↔
        s.query.depth ≠ 0
  /-- Otherwise template and values are built, and rendering them at once or
  later is the same. -/
  balanced : s.query.unmatchedClose = none → s.query.depth = 0 →
    ∃ p : Prepared, s.query.build = .ok p ∧ p.template = s.query.template ∧
      p.values = s.query.values ∧ ∀ render, s.query.buildWith render = .ok (p.renderWith render)

variable {s : Session} {moves : List GroupMove}

theorem unmatchedClose_performAll {offset : Nat} (h : s.query.unmatchedClose = some offset)
    (later : List Call) : (performAll s later).query.unmatchedClose = some offset := by
  rw [(follows_performAll s later).unmatchedClose, h, Option.some_or]

theorem AccountedFor.of_follows (h : Follows .start moves s) : s.AccountedFor moves where
  depth := by
    rw [h.depth]
    exact GroupMove.depthAfter_zero_eq moves
  unmatchedClose_none := by
    have hnone : s.query.unmatchedClose = (unmatchedFrom 0 moves).head? := h.unmatchedClose
    rw [hnone, List.head?_eq_none_iff, GroupMove.unmatchedFrom_eq_nil_iff]
    exact forall₂_congr fun n _ => by omega
  unmatchedClose_some := by
    intro offset
    rw [h.unmatchedClose]
    exact GroupMove.head?_unmatchedFrom_zero_eq_some_iff
  places := fun m hm => (h.places m hm).2
  warnings := by
    have hincreasing : (moves.map GroupMove.offset).Pairwise (· < ·) :=
      List.pairwise_map.2 h.increasing
    refine ⟨unmatchedFrom 0 moves, h.warnings, fun offset => ?_,
      hincreasing.sublist (GroupMove.unmatchedFrom_sublist 0 moves), ?_⟩
    · exact GroupMove.mem_unmatchedFrom_zero_iff
    · rw [h.unmatchedClose]
      rfl
  unmatched := by
    intro offset hoffset
    have hclosed : .closed offset ∈ moves := by
      obtain ⟨before, after, rfl, -⟩ :=
        GroupMove.head?_unmatchedFrom_zero_eq_some_iff.1 (h.unmatchedClose.symm.trans hoffset)
      exact List.mem_append_right before List.mem_cons_self
    refine ⟨(h.places _ hclosed).2, ?_⟩
    intro later t
    have hkept : t.query.unmatchedClose = some offset := unmatchedClose_performAll hoffset later
    exact ⟨hkept, Query.build_of_unmatchedClose hkept⟩
  unclosed := by
    intro hnone
    by_cases hdepth : s.query.depth = 0
    · obtain ⟨hbuild, hrender⟩ := Query.build_of_depth_eq_zero hnone hdepth
      refine ⟨iff_of_false ?_ (not_not_intro hdepth), fun render =>
        iff_of_false ?_ (not_not_intro hdepth)⟩
      · rw [hbuild]
        exact fun heq => nomatch heq
      · rw [hrender]
        exact fun heq => nomatch heq
    · obtain ⟨hbuild, hrender⟩ := Query.build_of_depth_ne_zero hnone hdepth
      exact ⟨iff_of_true hbuild hdepth, fun render => iff_of_true (hrender render) hdepth⟩
  balanced := by
    intro hnone hdepth
    obtain ⟨hbuild, hrender⟩ := Query.build_of_depth_eq_zero hnone hdepth
    exact ⟨_, hbuild, rfl, rfl, hrender⟩

/-- At every moment of chains of calls on one query, in the middle of groups
too, the openings and closings made by then account for the groups of the query
and for what is built. -/
theorem accountedFor_of_reaches (chains : List (List Call)) (calls made : List Call) (t : Session)
    (h : Reaches (chains.foldl performAll .start) calls made t) :
    t.AccountedFor (movesOfAll .start (chains.flatten ++ made)) := by
  rw [h.eq_performAll_flatten]
  exact .of_follows (follows_performAll .start _)

/-- A moment inside a group whose calls close it and then close once more. A
path takes two bytes, so the place of the second closing is no count of
characters. -/
theorem accountedFor_of_reaches_inside_group :
    let chains : List (List Call) := [[.equal "ä" (.int 1), .and]]
    let inner : List Call := [.equal "b" (.int 2), .closeGroup, .closeGroup, .or, .openGroup,
      .isNull "c"]
    let made : List Call := [.openGroup, .equal "b" (.int 2), .closeGroup, .closeGroup, .or,
      .openGroup]
    ∃ t, Reaches (chains.foldl performAll .start) [.group inner, .closeGroup] made t ∧
      t.query.depth = 1 ∧ t.query.unmatchedClose = some 22 ∧
      HasAt t.query.template 22 ')' ∧ t.warnings = [.unmatchedClose 22] ∧
      ∀ later, (performAll t later).query.build = .error (.unmatchedClose 22) := by
  intro chains inner made
  have hreaches : Reaches (chains.foldl performAll .start) [.group inner, .closeGroup] made _ :=
    .inside (.next (.next (.next (.next (.next .here)))))
  have haccounted := accountedFor_of_reaches chains _ made _ hreaches
  have hmoves : movesOfAll .start (chains.flatten ++ made) =
      [.opened 13, .closed 21, .closed 22, .opened 27] := by decide +kernel
  rw [hmoves] at haccounted
  have hkept := (haccounted.unmatchedClose_some 22).2
    ⟨[.opened 13, .closed 21], [.opened 27], by decide, by decide, by decide⟩
  obtain ⟨hat, hlater⟩ := haccounted.unmatched 22 hkept
  refine ⟨_, hreaches, ?_, hkept, hat, ?_, fun later => (hlater later).2.1⟩
  · have hdepth := haccounted.depth
    have htotals : GroupMove.total [.opened 13, .closed 21, .closed 22, .opened 27] -
        GroupMove.least [.opened 13, .closed 21, .closed 22, .opened 27] = 1 := by decide
    omega
  · decide +kernel

end Session

end FilterTemplate
