/-
  FilterTemplate.Proofs.Loader.Failure

  What a failed load leaves behind. A file of JSON counts as a whole, and so
  does a file without text. A file of lines is set up to its first bad line,
  and pairs are set up to the first bad one; the failure tells which it is, and
  nothing from there on is set.
-/
import FilterTemplate.Proofs.Loader.Assignments

namespace FilterTemplate.Loader

/-! ## Files -/

/-- A file without text fails and changes nothing. -/
theorem loadFile_of_not_text {content : Except ReadFailure ByteArray}
    (h : ∀ text : String, content ≠ .ok text.toUTF8) (l : Loader) (path : String) :
    ∃ failure, l.loadFile path content = (l, some (.unreadable failure)) := by
  cases content with
  | error failure => exact ⟨failure, rfl⟩
  | ok bytes =>
    have hdecoded : String.fromUTF8? bytes = none := by
      rw [String.fromUTF8?, dif_neg]
      exact fun hvalid => h ⟨bytes, hvalid⟩ rfl
    exact ⟨.notUtf8, by rw [loadFile, hdecoded]⟩

variable {path : String}

/-- A file of JSON that fails changes nothing. -/
theorem loadText_of_isJson (hpath : FileName.isJson path = true) (l : Loader) {text : String}
    (hfails : (l.loadText path text).2 ≠ none) : (l.loadText path text).1 = l := by
  rw [loadText, if_pos hpath] at hfails ⊢
  split at hfails
  next => exact absurd rfl hfails
  next => rfl

/-- Any other file sets its lines. -/
theorem loadText_of_not_isJson (hpath : FileName.isJson path = false) (l : Loader)
    (text : String) :
    l.loadText path text =
      ({ l with params := (assignLines l.params 1 (Text.lines text.toList)).1 },
        (assignLines l.params 1 (Text.lines text.toList)).2) := by
  rw [loadText, if_neg (by simp [hpath])]

/-- A file of lines is set to its end or up to its first bad line. -/
theorem loadText_cases (hpath : FileName.isJson path = false) (l : Loader) (text : String) :
    (∃ es, List.Forall₂ Assigns (keptLines (Text.lines text.toList)) es ∧
        l.loadText path text = ({ l with params := l.params.extend es }, none)) ∨
      ∃ before bad after es, Text.lines text.toList = before ++ bad :: after ∧
        List.Forall₂ Assigns (keptLines before) es ∧ ¬ IsPassedOver bad ∧ ¬ IsAssignment bad ∧
        l.loadText path text =
          ({ l with params := l.params.extend es }, some (.badLine (before.length + 1))) := by
  rw [loadText_of_not_isJson hpath]
  rcases kept_or_exists_first (Text.lines text.toList) with
    ⟨es, hes⟩ | ⟨before, bad, after, es, hlines, hes, hkept, hbad⟩
  · have hall := assignLines_append hes l.params 1 []
    rw [List.append_nil, assignLines] at hall
    exact .inl ⟨es, hes, by rw [hall]⟩
  · have hstop := assignLines_append hes l.params 1 (bad :: after)
    rw [assignLines_of_eq_none hkept (assignment?_eq_none hbad), Nat.add_comm] at hstop
    exact .inr ⟨before, bad, after, es, hlines, hes, hkept, hbad, by rw [hlines, hstop]⟩

/-! ## Pairs -/

/-- Pairs are set to the last or up to the first bad one. -/
theorem applyPairs_cases (l : Loader) (pairs : List String) :
    (∃ es, List.Forall₂ (fun pair e => Assigns pair.toList e) pairs es ∧
        l.applyPairs pairs = (l.setAll es, none)) ∨
      ∃ before bad after es, pairs = before ++ bad :: after ∧
        List.Forall₂ (fun pair e => Assigns pair.toList e) before es ∧
        ¬ IsAssignment bad.toList ∧
        l.applyPairs pairs = (l.setAll es, some (.badPair bad)) := by
  rcases forall₂_or_exists_first (fun (pair : String) e => Assigns pair.toList e) pairs with
    ⟨es, hes⟩ | ⟨before, bad, after, es, rfl, hes, hbad⟩
  · have hall := applyPairs_append hes l []
    rw [List.append_nil, applyPairs] at hall
    exact .inl ⟨es, hes, hall⟩
  · have hstop := applyPairs_append hes l (bad :: after)
    rw [applyPairs_of_bad hbad] at hstop
    exact .inr ⟨before, bad, after, es, rfl, hes, hbad, hstop⟩

/-! ## Failures -/

/-- What a load leaves behind where it fails. A file without text and a file of JSON change
nothing then. Of any other file the lines that are neither blank nor comments are set, to the end
or up to the first that is no assignment, and the failure has its number among all lines. Pairs
are set to the last or up to the first that is no assignment, and the failure has it. -/
theorem assigns_exactly_before_failure (l : Loader) (path : String) :
    (∀ content : Except ReadFailure ByteArray, (∀ text : String, content ≠ .ok text.toUTF8) →
      ∃ failure, l.loadFile path content = (l, some (.unreadable failure))) ∧
    (FileName.isJson path = true → ∀ text : String,
      (l.loadFile path (.ok text.toUTF8)).2 ≠ none →
        (l.loadFile path (.ok text.toUTF8)).1 = l) ∧
    (FileName.isJson path = false → ∀ text : String,
      (∃ es, List.Forall₂ Assigns (keptLines (Text.lines text.toList)) es ∧
        l.loadFile path (.ok text.toUTF8) = ({ l with params := l.params.extend es }, none)) ∨
      ∃ before bad after es, Text.lines text.toList = before ++ bad :: after ∧
        List.Forall₂ Assigns (keptLines before) es ∧ ¬ IsPassedOver bad ∧ ¬ IsAssignment bad ∧
        l.loadFile path (.ok text.toUTF8) =
          ({ l with params := l.params.extend es }, some (.badLine (before.length + 1)))) ∧
    ∀ pairs : List String,
      (∃ es, List.Forall₂ (fun pair e => Assigns pair.toList e) pairs es ∧
        l.applyPairs pairs = (l.setAll es, none)) ∨
      ∃ before bad after es, pairs = before ++ bad :: after ∧
        List.Forall₂ (fun pair e => Assigns pair.toList e) before es ∧
        ¬ IsAssignment bad.toList ∧
        l.applyPairs pairs = (l.setAll es, some (.badPair bad)) := by
  refine ⟨fun content h => loadFile_of_not_text h l path, ?_, ?_, applyPairs_cases l⟩
  · intro hpath text hfails
    rw [loadFile_toUTF8] at hfails ⊢
    exact loadText_of_isJson hpath l hfails
  · intro hpath text
    rw [loadFile_toUTF8]
    exact loadText_cases hpath l text

/-- A file that is not there, one whose name promises JSON and whose lines are pairs, which set
nothing, lines of which the fourth is bad, and pairs of which the second is bad. -/
theorem assigns_exactly_before_failure_of_four_loads :
    let l : Loader := ⟨.ofList [("b", .null)], []⟩
    let text := "# c\r\n\r\nb=true\n = x\nc=1"
    (∃ failure, l.loadFile "p.env" (.error .notFound) = (l, some (.unreadable failure))) ∧
      (l.loadFile "p.json" (.ok text.toUTF8)).1 = l ∧
      l.loadFile "p.env" (.ok text.toUTF8) =
        ({ l with params := .ofList [("b", .boolean true)] }, some (.badLine 4)) ∧
      l.applyPairs ["b=true", "c"] =
        (l.setAll [("b", .boolean true)], some (.badPair "c")) := by
  intro l text
  have hassigns : Assigns "b=true".toList ("b", .boolean true) :=
    @Assigns.intro ['b'] "true".toList (by decide) (by decide)
  obtain ⟨hmissing, -, hlines, hpairs⟩ := assigns_exactly_before_failure l "p.env"
  obtain ⟨-, hjson, -, -⟩ := assigns_exactly_before_failure l "p.json"
  refine ⟨hmissing _ nofun, hjson (by decide +kernel) text ?_, ?_, ?_⟩
  · have hfails : (l.loadText "p.json" text).2.isSome = true := by decide +kernel
    rw [loadFile_toUTF8]
    exact fun hnone => absurd hfails (by simp [hnone])
  · have hread : Text.lines text.toList =
        ["# c".toList, [], "b=true".toList, " = x".toList, "c=1".toList] := by decide +kernel
    have hnumber : (l.loadFile "p.env" (.ok text.toUTF8)).2 = some (.badLine 4) := by
      rw [loadFile_toUTF8, loadText_of_not_isJson (by decide +kernel), hread]
      rfl
    rcases hlines (by decide +kernel) text with
      ⟨es, -, h⟩ | ⟨before, bad, after, es, htext, hes, -, -, h⟩
    · rw [h] at hnumber
      exact absurd hnumber nofun
    · rw [h, Option.some.injEq, LoadError.badLine.injEq] at hnumber
      have hbefore : before = ["# c".toList, [], "b=true".toList] := by
        rw [← List.take_left' (by omega : before.length = 3), ← htext, hread]
        rfl
      have hkept : keptLines before = ["b=true".toList] := by
        rw [hbefore]
        decide +kernel
      rw [hkept] at hes
      have hentries : es = [("b", .boolean true)] :=
        List.right_unique_forall₂' rightUnique_assigns hes (.cons hassigns .nil)
      rw [h, hnumber, hentries]
      rfl
  · have hpair : (l.applyPairs ["b=true", "c"]).2 = some (.badPair "c") := rfl
    rcases hpairs ["b=true", "c"] with ⟨es, -, h⟩ | ⟨before, bad, after, es, hsplit, hes, -, h⟩
    · rw [h] at hpair
      exact absurd hpair nofun
    · rw [h, Option.some.injEq, LoadError.badPair.injEq] at hpair
      rcases before with _ | ⟨first, _ | ⟨second, before⟩⟩
      · exact absurd ((List.cons.inj hsplit).1.trans hpair) (by decide)
      · obtain ⟨rfl, -⟩ := List.cons.inj hsplit
        cases hes with
        | cons he hnil =>
          cases hnil
          rw [h, hpair, rightUnique_assigns he hassigns]
      · exact absurd (congrArg List.length hsplit) (by simp)

end FilterTemplate.Loader
