/-
  FilterTemplate.Proofs.Loader.Agreement

  Lines and pairs are read alike. The lines of a file that are kept may be
  given as pairs, just as they are, and set the same or fail after the same.
  Neither the blanks around a line, a key or a value nor the ends of the lines
  matter.
-/
import FilterTemplate.Proofs.Loader.Failure

namespace FilterTemplate

open Text (lines trim withReturns)

/-! ## Ends of lines -/

theorem Text.withReturns_of_not_mem {s : List Char} (h : '\n' ∉ s) : withReturns s = s := by
  induction s with
  | nil => rfl
  | cons c s ih =>
    rw [List.mem_cons, not_or] at h
    rw [withReturns, List.flatMap_cons, if_neg (Ne.symm h.1), ← withReturns, ih h.2]
    rfl

theorem Text.withReturns_append_cons {line : List Char} (h : '\n' ∉ line) (s : List Char) :
    withReturns (line ++ '\n' :: s) = line ++ ['\r'] ++ '\n' :: withReturns s := by
  rw [withReturns, List.flatMap_append, List.flatMap_cons, if_pos rfl, ← withReturns,
    ← withReturns, withReturns_of_not_mem h, List.append_assoc]
  rfl

/-- Carriage returns at the ends of the lines are blanks at their ends. -/
theorem forall₂_lines_withReturns (s : List Char) :
    List.Forall₂ SameButBlanks (lines (withReturns s)) (lines s) := by
  induction hlength : s.length using Nat.strongRecOn generalizing s with
  | ind n ih =>
    by_cases hfeed : '\n' ∈ s
    · obtain ⟨line, rest, rfl, hline⟩ := List.eq_append_cons_of_mem hfeed
      have hreturn : ∀ c ∈ ['\r'], Text.isBlank c = true :=
        List.forall_mem_singleton.2 (by decide)
      have hreturned : '\n' ∉ line ++ ['\r'] := by simp [hline]
      obtain ⟨first, hfirst, hlines⟩ := Text.exists_lines_eq_cons hline rest
      obtain ⟨first', hfirst', hlines'⟩ :=
        Text.exists_lines_eq_cons hreturned (withReturns rest)
      have hrest : rest.length < n := by
        rw [← hlength, List.length_append, List.length_cons]
        omega
      rw [Text.withReturns_append_cons hline, hlines, hlines']
      refine .cons (.ends ?_) (ih _ hrest rest rfl)
      rw [hfirst', hfirst, Text.trim_append hreturn]
    · rw [Text.withReturns_of_not_mem hfeed]
      exact List.forall₂_same.2 fun line _ => .ends rfl

/-! ## Lines as pairs -/

namespace Loader

/-- The lines that are kept set as pairs what they set as lines, and fail together with them. -/
theorem applyPairs_keptLines (l : Loader) (ls : List (List Char)) (number : Nat) :
    (l.applyPairs ((keptLines ls).map String.ofList)).1.params =
        (assignLines l.params number ls).1 ∧
      ((l.applyPairs ((keptLines ls).map String.ofList)).2 = none ↔
        (assignLines l.params number ls).2 = none) := by
  induction ls generalizing l number with
  | nil => exact ⟨rfl, Iff.rfl⟩
  | cons line ls ih =>
    by_cases hline : IsPassedOver line
    · rw [keptLines_cons_of_isPassedOver hline, assignLines_of_isPassedOver hline]
      exact ih l (number + 1)
    · rw [keptLines_cons_of_not hline, List.map_cons]
      by_cases hgood : IsAssignment line
      · obtain ⟨e, he⟩ := hgood
        have hpair : Assigns (String.ofList line).toList e := by rwa [String.toList_ofList]
        rw [applyPairs_of_assigns hpair, assignLines_of_assigns hline he]
        exact ih (l.setAll [e]) (number + 1)
      · have hpair : ¬ IsAssignment (String.ofList line).toList := by
          rwa [String.toList_ofList]
        rw [applyPairs_of_bad hpair, assignLines_of_eq_none hline (assignment?_eq_none hgood)]
        exact ⟨rfl, iff_of_false nofun nofun⟩

/-- Files of lines and pairs are read alike. The lines of a file that are neither blank nor
comments, given as pairs as they are, succeed or fail with the file and leave the same values.
Blanks at the ends of a line or around its key and its value make no difference, nor do carriage
returns at the ends of the lines, nor such blanks in pairs. -/
theorem applyPairs_keptLines_agrees {path : String} (hpath : FileName.isJson path = false)
    (l : Loader) (text : String) :
    (l.applyPairs ((keptLines (lines text.toList)).map String.ofList)).1.params =
        (l.loadFile path (.ok text.toUTF8)).1.params ∧
      ((l.applyPairs ((keptLines (lines text.toList)).map String.ofList)).2 = none ↔
        (l.loadFile path (.ok text.toUTF8)).2 = none) ∧
      (∀ other : String, List.Forall₂ SameButBlanks (lines other.toList) (lines text.toList) →
        l.loadFile path (.ok other.toUTF8) = l.loadFile path (.ok text.toUTF8)) ∧
      l.loadFile path (.ok (String.ofList (withReturns text.toList)).toUTF8) =
        l.loadFile path (.ok text.toUTF8) ∧
      ∀ pairs pairs' : List String,
        List.Forall₂ (fun s t => SameButBlanks s.toList t.toList) pairs pairs' →
          (l.applyPairs pairs).1.params = (l.applyPairs pairs').1.params ∧
            ((l.applyPairs pairs).2 = none ↔ (l.applyPairs pairs').2 = none) := by
  have hload : ∀ other : String,
      List.Forall₂ SameButBlanks (lines other.toList) (lines text.toList) →
        l.loadFile path (.ok other.toUTF8) = l.loadFile path (.ok text.toUTF8) := by
    intro other hother
    rw [loadFile_toUTF8, loadFile_toUTF8, loadText_of_not_isJson hpath,
      loadText_of_not_isJson hpath, assignLines_congr hother]
  have hreturns : List.Forall₂ SameButBlanks
      (lines (String.ofList (withReturns text.toList)).toList) (lines text.toList) := by
    rw [String.toList_ofList]
    exact forall₂_lines_withReturns text.toList
  obtain ⟨hparams, herror⟩ := applyPairs_keptLines l (lines text.toList) 1
  refine ⟨?_, ?_, hload, hload _ hreturns, ?_⟩
  · rw [hparams, loadFile_toUTF8, loadText_of_not_isJson hpath]
  · rw [herror, loadFile_toUTF8, loadText_of_not_isJson hpath]
  · intro pairs pairs' hpairs
    obtain ⟨hsame, hfails⟩ := applyPairs_congr hpairs l
    exact ⟨congrArg Loader.params hsame, hfails⟩

/-- Lines with blanks of other scripts, two kinds of ends and a bad one, and the same lines with
other blanks. -/
theorem applyPairs_keptLines_agrees_of_padded_lines :
    let l : Loader := ⟨.ofList [("b", .null)], []⟩
    let text := "# c\r\n\u00a0a = '1' \r\nb=x=y\nbad\nc=2"
    FileName.isJson "p.env" = false ∧
      (l.loadFile "p.env" (.ok text.toUTF8)).1.params =
        .ofList [("b", .string "x=y"), ("a", .string "1")] ∧
      (l.applyPairs ["\u00a0a = '1' ", "b=x=y", "bad", "c=2"]).1.params =
        (l.loadFile "p.env" (.ok text.toUTF8)).1.params ∧
      (l.loadFile "p.env" (.ok text.toUTF8)).2 ≠ none ∧
      l.loadFile "p.env" (.ok "# c\na='1'\n b= x=y\nbad\r\nc=2\u3000".toUTF8) =
        l.loadFile "p.env" (.ok text.toUTF8) := by
  intro l text
  have hpath : FileName.isJson "p.env" = false := by decide +kernel
  obtain ⟨hparams, hfails, hblanks, -, -⟩ := applyPairs_keptLines_agrees hpath l text
  have hread : lines text.toList =
      ["# c".toList, "\u00a0a = '1' ".toList, "b=x=y".toList, "bad".toList, "c=2".toList] := by
    decide +kernel
  have hother : lines "# c\na='1'\n b= x=y\nbad\r\nc=2\u3000".toList =
      ["# c".toList, "a='1'".toList, " b= x=y".toList, "bad".toList, "c=2\u3000".toList] := by
    decide +kernel
  have hkept : (keptLines (lines text.toList)).map String.ofList =
      ["\u00a0a = '1' ", "b=x=y", "bad", "c=2"] := by
    rw [hread]
    decide +kernel
  rw [hkept] at hparams hfails
  have hbad : (l.applyPairs ["\u00a0a = '1' ", "b=x=y", "bad", "c=2"]).2 =
      some (.badPair "bad") := rfl
  refine ⟨hpath, hparams.symm.trans rfl, hparams, fun hnone => ?_, hblanks _ ?_⟩
  · rw [hfails.2 hnone] at hbad
    exact absurd hbad nofun
  · rw [hread, hother]
    have ha : SameButBlanks "a='1'".toList "\u00a0a = '1' ".toList :=
      @SameButBlanks.sides "a".toList "\u00a0a ".toList "'1'".toList " '1' ".toList
        (by decide) (by decide) (by decide) (by decide)
    have hb : SameButBlanks " b= x=y".toList "b=x=y".toList :=
      @SameButBlanks.sides " b".toList "b".toList " x=y".toList "x=y".toList
        (by decide) (by decide) (by decide) (by decide)
    exact .cons (.ends rfl) (.cons ha (.cons hb (.cons (.ends rfl) (.cons (.ends rfl) .nil))))

end Loader

end FilterTemplate
