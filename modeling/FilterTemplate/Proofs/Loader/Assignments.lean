/-
  FilterTemplate.Proofs.Loader.Assignments

  What lines and pairs set, and what is left where one of them is bad. Cutting
  a text at its equals sign finds its assignment, if it has one, whether the
  text is trimmed first or not. So a line that is not passed over sets what it
  assigns or stops the rest, and so does a pair. By induction, all before the
  first bad one is set, in order, and nothing from it on.
-/
import FilterTemplate.Loader.Assignments
import FilterTemplate.Proofs.Text.Trimming
import Mathlib.Data.List.Forall2
import Mathlib.Data.List.TakeWhile

namespace FilterTemplate

open Text (trim isBlank)

/-! ## Cutting at the equals sign -/

theorem assignment?_append_cons {key : List Char} (h : '=' ∉ key) (value : List Char) :
    assignment? (key ++ '=' :: value) =
      if trim key = [] then none else some (trim key, trim value) := by
  have hkey : ∀ c ∈ key, decide (c ≠ '=') = true := by
    intro c hc
    exact decide_eq_true fun heq => h (heq ▸ hc)
  have hdrop : (key ++ '=' :: value).dropWhile (fun c => decide (c ≠ '=')) = '=' :: value := by
    rw [List.dropWhile_append_of_pos hkey, List.dropWhile_cons_of_neg (by simp)]
  have htake : (key ++ '=' :: value).takeWhile (fun c => decide (c ≠ '=')) = key := by
    rw [List.takeWhile_append_of_pos hkey, List.takeWhile_cons_of_neg (by simp), List.append_nil]
  rw [assignment?, hdrop]
  dsimp only
  rw [htake]

theorem assignment?_of_not_mem {s : List Char} (h : '=' ∉ s) : assignment? s = none := by
  have hdrop : s.dropWhile (fun c => decide (c ≠ '=')) = [] := by
    rw [List.dropWhile_eq_nil_iff]
    intro c hc
    exact decide_eq_true fun heq => h (heq ▸ hc)
  rw [assignment?, hdrop]

/-- A text may be trimmed before it is cut. -/
theorem assignment?_trim (s : List Char) : assignment? (trim s) = assignment? s := by
  by_cases h : '=' ∈ s
  · obtain ⟨key, value, rfl, hkey⟩ := List.eq_append_cons_of_mem h
    have hstart : '=' ∉ Text.trimStart key := fun hc =>
      hkey ((List.dropWhile_sublist isBlank).subset hc)
    rw [Text.trim_append_cons (by decide), assignment?_append_cons hstart,
      assignment?_append_cons hkey, Text.trim_trimStart, Text.trim_trimEnd]
  · have htrim : '=' ∉ trim s := by
      intro hc
      obtain ⟨before, -, hbefore⟩ := Text.exists_eq_append_trimStart s
      obtain ⟨after, -, hafter⟩ := Text.exists_eq_trimEnd_append (Text.trimStart s)
      rw [hbefore, hafter] at h
      exact h (List.mem_append_right _ (List.mem_append_left _ hc))
    rw [assignment?_of_not_mem h, assignment?_of_not_mem htrim]

theorem Value.ofText_trim (s : List Char) : Value.ofText (trim s) = Value.ofText s := by
  rw [ofText, Text.trim_trim, ofText]

/-- Cutting a text finds what it assigns. -/
theorem assigns_iff {s : List Char} {e : String × Value} :
    Assigns s e ↔ ∃ key value, assignment? s = some (key, value) ∧
      e = (String.ofList key, .ofText value) := by
  constructor
  · rintro ⟨hkey, hne⟩
    next key value =>
    refine ⟨trim key, trim value, ?_, ?_⟩
    · rw [assignment?_append_cons hkey, if_neg hne]
    · rw [Value.ofText_trim]
  · rintro ⟨key, value, hcut, rfl⟩
    by_cases h : '=' ∈ s
    · obtain ⟨key', value', rfl, hkey⟩ := List.eq_append_cons_of_mem h
      rw [assignment?_append_cons hkey] at hcut
      split at hcut
      next => exact absurd hcut (by simp)
      next hne =>
        obtain ⟨rfl, rfl⟩ := Prod.mk.inj (Option.some.inj hcut)
        rw [Value.ofText_trim]
        exact .intro hkey hne
    · rw [assignment?_of_not_mem h] at hcut
      exact absurd hcut (by simp)

theorem rightUnique_assigns : Relator.RightUnique Assigns := by
  intro s e e' he he'
  obtain ⟨key, value, hcut, rfl⟩ := assigns_iff.1 he
  obtain ⟨key', value', hcut', rfl⟩ := assigns_iff.1 he'
  obtain ⟨rfl, rfl⟩ := Prod.mk.inj (Option.some.inj (hcut.symm.trans hcut'))
  rfl

theorem assignment?_eq_none {s : List Char} (h : ¬ IsAssignment s) : assignment? s = none := by
  cases hcut : assignment? s with
  | none => rfl
  | some cut => exact absurd ⟨_, assigns_iff.2 ⟨cut.1, cut.2, hcut, rfl⟩⟩ h

/-! ## The first that is bad -/

/-- Either all items are related to some, or one is the first that is not. -/
theorem forall₂_or_exists_first {α β : Type} (R : α → β → Prop) (xs : List α) :
    (∃ es, List.Forall₂ R xs es) ∨
      ∃ before bad after es, xs = before ++ bad :: after ∧ List.Forall₂ R before es ∧
        ¬ ∃ e, R bad e := by
  induction xs with
  | nil => exact .inl ⟨[], .nil⟩
  | cons x xs ih =>
    by_cases hx : ∃ e, R x e
    · obtain ⟨e, he⟩ := hx
      rcases ih with ⟨es, hes⟩ | ⟨before, bad, after, es, rfl, hes, hbad⟩
      · exact .inl ⟨e :: es, .cons he hes⟩
      · exact .inr ⟨x :: before, bad, after, e :: es, rfl, .cons he hes, hbad⟩
    · exact .inr ⟨[], x, xs, [], rfl, .nil, hx⟩

theorem keptLines_cons_of_isPassedOver {line : List Char} (h : IsPassedOver line)
    (rest : List (List Char)) : keptLines (line :: rest) = keptLines rest :=
  List.filter_cons_of_neg (by simpa using h)

theorem keptLines_cons_of_not {line : List Char} (h : ¬ IsPassedOver line)
    (rest : List (List Char)) : keptLines (line :: rest) = line :: keptLines rest :=
  List.filter_cons_of_pos (by simpa using h)

/-- The first bad line is found among the lines that are kept. -/
theorem kept_or_exists_first (lines : List (List Char)) :
    (∃ es, List.Forall₂ Assigns (keptLines lines) es) ∨
      ∃ before bad after es, lines = before ++ bad :: after ∧
        List.Forall₂ Assigns (keptLines before) es ∧ ¬ IsPassedOver bad ∧ ¬ IsAssignment bad := by
  refine (forall₂_or_exists_first Assigns (keptLines lines)).imp_right ?_
  rintro ⟨kept, bad, later, es, hkept, hes, hbad⟩
  obtain ⟨before, others, rfl, hbefore, hothers⟩ := List.filter_eq_append_iff.1 hkept
  obtain ⟨passed, after, rfl, hpassed, hkeep, -⟩ := List.filter_eq_cons_iff.1 hothers
  refine ⟨before ++ passed, bad, after, es, (List.append_assoc _ _ _).symm, ?_,
    by simpa using hkeep, hbad⟩
  have hnone : passed.filter (fun line => ¬ IsPassedOver line) = [] :=
    List.filter_eq_nil_iff.2 hpassed
  rw [keptLines, List.filter_append, hbefore, hnone, List.append_nil]
  exact hes

/-! ## One line or pair -/

namespace Loader

theorem isIgnored_iff (line : List Char) : isIgnored line = true ↔ IsPassedOver line := by
  have hblank : line.all isBlank = true ↔ (trim line).head? = none := by
    rw [Text.head?_trim]
    simp [List.find?_eq_none]
  rw [IsPassedOver, hblank, ← Text.head?_trim, isIgnored]
  cases trim line with
  | nil => simp
  | cons c t => simp

variable {line : List Char} {e : String × Value}

theorem assignLines_of_isPassedOver (h : IsPassedOver line) (p : Params) (number : Nat)
    (rest : List (List Char)) :
    assignLines p number (line :: rest) = assignLines p (number + 1) rest := by
  rw [assignLines, if_pos ((isIgnored_iff line).2 h)]

theorem assignLines_of_eq_some (h : ¬ IsPassedOver line) {key value : List Char}
    (hcut : assignment? line = some (key, value)) (p : Params) (number : Nat)
    (rest : List (List Char)) :
    assignLines p number (line :: rest) = assignLines (p.assign key value) (number + 1) rest := by
  rw [assignLines, if_neg (mt (isIgnored_iff line).1 h), assignment?_trim, hcut]

theorem assignLines_of_eq_none (h : ¬ IsPassedOver line) (hcut : assignment? line = none)
    (p : Params) (number : Nat) (rest : List (List Char)) :
    assignLines p number (line :: rest) = (p, some (.badLine number)) := by
  rw [assignLines, if_neg (mt (isIgnored_iff line).1 h), assignment?_trim, hcut]

theorem assignLines_of_assigns (h : ¬ IsPassedOver line) (he : Assigns line e) (p : Params)
    (number : Nat) (rest : List (List Char)) :
    assignLines p number (line :: rest) =
      assignLines (p.insert e.1 e.2) (number + 1) rest := by
  obtain ⟨key, value, hcut, rfl⟩ := assigns_iff.1 he
  exact assignLines_of_eq_some h hcut p number rest

variable {pair : String}

theorem applyPairs_of_assigns (he : Assigns pair.toList e) (l : Loader) (rest : List String) :
    l.applyPairs (pair :: rest) = (l.setAll [e]).applyPairs rest := by
  obtain ⟨key, value, hcut, rfl⟩ := assigns_iff.1 he
  rw [applyPairs, hcut]
  rfl

theorem applyPairs_of_bad (hbad : ¬ IsAssignment pair.toList) (l : Loader)
    (rest : List String) : l.applyPairs (pair :: rest) = (l, some (.badPair pair)) := by
  rw [applyPairs, assignment?_eq_none hbad]

/-! ## Lines and pairs in a row -/

/-- Lines that are all good set what they assign and leave the rest to do. -/
theorem assignLines_append {lines : List (List Char)} {es : List (String × Value)}
    (h : List.Forall₂ Assigns (keptLines lines) es) (p : Params) (number : Nat)
    (rest : List (List Char)) :
    assignLines p number (lines ++ rest) =
      assignLines (p.extend es) (number + lines.length) rest := by
  induction lines generalizing p number es with
  | nil =>
    cases h
    rfl
  | cons line lines ih =>
    have hnumber : number + 1 + lines.length = number + (line :: lines).length := by
      rw [List.length_cons]
      omega
    by_cases hline : IsPassedOver line
    · rw [keptLines_cons_of_isPassedOver hline] at h
      rw [List.cons_append, assignLines_of_isPassedOver hline, ih h, hnumber]
    · rw [keptLines_cons_of_not hline] at h
      cases h with
      | cons he hes =>
        rw [List.cons_append, assignLines_of_assigns hline he, ih hes, hnumber,
          Table.extend_cons]

theorem setAll_setAll (l : Loader) (e : String × Value) (es : List (String × Value)) :
    (l.setAll [e]).setAll es = l.setAll (e :: es) := by
  rw [setAll, setAll, setAll, List.map_cons, List.map_cons, List.map_nil, List.append_assoc]
  rfl

/-- Pairs that are all good set what they assign and leave the rest to do. -/
theorem applyPairs_append {pairs : List String} {es : List (String × Value)}
    (h : List.Forall₂ (fun pair e => Assigns pair.toList e) pairs es) (l : Loader)
    (rest : List String) : l.applyPairs (pairs ++ rest) = (l.setAll es).applyPairs rest := by
  induction h generalizing l with
  | nil => rw [setAll, List.map_nil, List.append_nil]; rfl
  | cons he _ ih => rw [List.cons_append, applyPairs_of_assigns he, ih, setAll_setAll]

/-! ## Other blanks -/

/-- Blanks that may differ do not hide the first character that is not blank. -/
theorem find?_of_sameButBlanks {s t : List Char} (h : SameButBlanks s t) :
    (s.find? fun c => !isBlank c) = t.find? fun c => !isBlank c := by
  cases h with
  | ends htrim => rw [← Text.head?_trim, ← Text.head?_trim, htrim]
  | @sides key key' _ _ _ _ htrim _ =>
    rw [List.find?_append, List.find?_append, ← Text.head?_trim key, ← Text.head?_trim key', htrim]
    rfl

theorem isPassedOver_iff_of_sameButBlanks {s t : List Char} (h : SameButBlanks s t) :
    IsPassedOver s ↔ IsPassedOver t := by
  have hblank : s.all isBlank = true ↔ t.all isBlank = true := by
    have hnone := iff_of_eq (congrArg (· = none) (find?_of_sameButBlanks h))
    simpa [List.find?_eq_none] using hnone
  rw [IsPassedOver, IsPassedOver, hblank, find?_of_sameButBlanks h]

theorem assignment?_eq_of_sameButBlanks {s t : List Char} (h : SameButBlanks s t) :
    assignment? s = assignment? t := by
  cases h with
  | ends htrim => rw [← assignment?_trim s, htrim, assignment?_trim]
  | sides hkey hkey' htrim hvalue =>
    rw [assignment?_append_cons hkey, assignment?_append_cons hkey', htrim, hvalue]

/-- Such blanks change nothing that lines set, and no failure. -/
theorem assignLines_congr {ls ls' : List (List Char)} (h : List.Forall₂ SameButBlanks ls ls')
    (p : Params) (number : Nat) : assignLines p number ls = assignLines p number ls' := by
  induction h generalizing p number with
  | nil => rfl
  | @cons s t _ _ hst _ ih =>
    by_cases hs : IsPassedOver s
    · have ht := (isPassedOver_iff_of_sameButBlanks hst).1 hs
      rw [assignLines_of_isPassedOver hs, assignLines_of_isPassedOver ht, ih]
    · have ht := mt (isPassedOver_iff_of_sameButBlanks hst).2 hs
      have hcut := assignment?_eq_of_sameButBlanks hst
      cases hsome : assignment? t with
      | none =>
        rw [assignLines_of_eq_none hs (hcut.trans hsome), assignLines_of_eq_none ht hsome]
      | some cut =>
        obtain ⟨key, value⟩ := cut
        rw [assignLines_of_eq_some hs (hcut.trans hsome), assignLines_of_eq_some ht hsome, ih]

/-- Such blanks change nothing that pairs set; a failure tells the pair as it is written. -/
theorem applyPairs_congr {pairs pairs' : List String}
    (h : List.Forall₂ (fun s t => SameButBlanks s.toList t.toList) pairs pairs') (l : Loader) :
    (l.applyPairs pairs).1 = (l.applyPairs pairs').1 ∧
      ((l.applyPairs pairs).2 = none ↔ (l.applyPairs pairs').2 = none) := by
  induction h generalizing l with
  | nil => exact ⟨rfl, Iff.rfl⟩
  | @cons s t _ _ hst _ ih =>
    rw [applyPairs, applyPairs, assignment?_eq_of_sameButBlanks hst]
    cases assignment? t.toList with
    | none => exact ⟨rfl, iff_of_false nofun nofun⟩
    | some cut => exact ih _

/-! ## Files -/

theorem loadFile_toUTF8 (l : Loader) (path text : String) :
    l.loadFile path (.ok text.toUTF8) = l.loadText path text := by
  have hdecoded : String.fromUTF8? text.toUTF8 = some text := by
    rw [String.fromUTF8?, String.toUTF8_eq_toByteArray, dif_pos text.isValidUTF8]
    rfl
  rw [loadFile, hdecoded]

end Loader

end FilterTemplate
