/-
  FilterTemplate.Proofs.Text.Trimming

  Trimming, and the lines of a text up to trimming. Blank characters at either
  end do not matter, a text whose ends are not blank stays, and what is trimmed
  around a character that is not blank is trimmed on either side of it. A line
  of a text may come with a carriage return that belonged to its end, which no
  trimmed line has.
-/
import FilterTemplate.Text.Blank
import FilterTemplate.Text.Lines

namespace FilterTemplate.Text

/-! ## Ends -/

/-- The first character is there and is not blank. -/
def StartsInk (s : List Char) : Prop :=
  ∃ c t, s = c :: t ∧ isBlank c = false

/-- The last character is there and is not blank. -/
def EndsInk (s : List Char) : Prop :=
  ∃ t c, s = t ++ [c] ∧ isBlank c = false

theorem EndsInk.append_left {s : List Char} (h : EndsInk s) (before : List Char) :
    EndsInk (before ++ s) := by
  obtain ⟨t, c, rfl, hc⟩ := h
  exact ⟨before ++ t, c, (List.append_assoc _ _ _).symm, hc⟩

theorem trimStart_append {before : List Char} (h : ∀ c ∈ before, isBlank c = true)
    (s : List Char) : trimStart (before ++ s) = trimStart s :=
  List.dropWhile_append_of_pos h

theorem trimStart_of_startsInk {s : List Char} (h : StartsInk s) : trimStart s = s := by
  obtain ⟨c, t, rfl, hc⟩ := h
  exact trimStart_cons_of_not_blank hc

theorem trimEnd_append {after : List Char} (h : ∀ c ∈ after, isBlank c = true) (s : List Char) :
    trimEnd (s ++ after) = trimEnd s := by
  have hreverse : ∀ c ∈ after.reverse, isBlank c = true :=
    fun c hc => h c (List.mem_reverse.1 hc)
  rw [trimEnd, List.reverse_append, List.dropWhile_append_of_pos hreverse, trimEnd]

theorem trimEnd_append_of_endsInk {s : List Char} (h : EndsInk s) {after : List Char}
    (hafter : ∀ c ∈ after, isBlank c = true) : trimEnd (s ++ after) = s := by
  obtain ⟨t, c, rfl, hc⟩ := h
  rw [trimEnd_append hafter, trimEnd, List.reverse_append, List.reverse_singleton,
    List.singleton_append, List.dropWhile_cons_of_neg (by simp [hc]), List.reverse_cons,
    List.reverse_reverse]

/-- Between blanks, a text whose ends are not blank is what trimming leaves. -/
theorem trim_eq {before core after : List Char} (hbefore : ∀ c ∈ before, isBlank c = true)
    (hstart : StartsInk core) (hend : EndsInk core) (hafter : ∀ c ∈ after, isBlank c = true) :
    trim (before ++ core ++ after) = core := by
  obtain ⟨c, t, hcore, hc⟩ := hstart
  have hink : StartsInk (core ++ after) := ⟨c, t ++ after, by rw [hcore]; rfl, hc⟩
  rw [trim, List.append_assoc, trimStart_append hbefore, trimStart_of_startsInk hink,
    trimEnd_append_of_endsInk hend hafter]

/-- Blanks at the end do not matter. -/
theorem trim_append {after : List Char} (h : ∀ c ∈ after, isBlank c = true) (s : List Char) :
    trim (s ++ after) = trim s := by
  induction s with
  | nil =>
    have hnil : trimStart after = [] := trimStart_eq_nil_of_all h
    rw [List.nil_append, trim, hnil]
    rfl
  | cons c s ih =>
    by_cases hc : isBlank c = true
    · rw [List.cons_append, trim, trim, trimStart_cons_of_blank hc, trimStart_cons_of_blank hc]
      exact ih
    · rw [Bool.not_eq_true] at hc
      rw [trim, trim, List.cons_append, trimStart_cons_of_not_blank hc,
        trimStart_cons_of_not_blank hc, ← List.cons_append, trimEnd_append h]

/-- Blanks at the start do not matter. -/
theorem trim_blanks_append {before : List Char} (h : ∀ c ∈ before, isBlank c = true)
    (s : List Char) : trim (before ++ s) = trim s := by
  rw [trim, trimStart_append h, trim]

/-- A text that trimming leaves alone does not start with a blank. -/
theorem startsInk_of_trim_eq {s : List Char} (hne : s ≠ []) (h : trim s = s) : StartsInk s := by
  cases s with
  | nil => exact absurd rfl hne
  | cons c t =>
    refine ⟨c, t, rfl, Bool.eq_false_iff.2 fun hc => ?_⟩
    have hlength : (trim (c :: t)).length ≤ t.length := by
      rw [trim, trimStart_cons_of_blank hc, trimEnd, List.length_reverse]
      have hend := (List.dropWhile_sublist isBlank (l := (trimStart t).reverse)).length_le
      have hstart := (List.dropWhile_sublist isBlank (l := t)).length_le
      rw [List.length_reverse] at hend
      exact Nat.le_trans hend hstart
    rw [h, List.length_cons] at hlength
    exact absurd hlength (Nat.not_succ_le_self _)

/-! ## Trimming a part -/

theorem exists_eq_append_trimStart (s : List Char) :
    ∃ before, (∀ c ∈ before, isBlank c = true) ∧ s = before ++ trimStart s :=
  ⟨s.takeWhile isBlank, List.all_eq_true.1 List.all_takeWhile,
    (List.takeWhile_append_dropWhile).symm⟩

theorem exists_eq_trimEnd_append (s : List Char) :
    ∃ after, (∀ c ∈ after, isBlank c = true) ∧ s = trimEnd s ++ after := by
  obtain ⟨before, hbefore, hs⟩ := exists_eq_append_trimStart s.reverse
  refine ⟨before.reverse, fun c hc => hbefore c (List.mem_reverse.1 hc), ?_⟩
  rw [trimEnd, ← trimStart, ← List.reverse_append, ← hs, List.reverse_reverse]

/-- The start may be trimmed first. -/
theorem trim_trimStart (s : List Char) : trim (trimStart s) = trim s := by
  obtain ⟨before, hbefore, hs⟩ := exists_eq_append_trimStart s
  have hstart : trimStart (trimStart s) = trimStart s := by
    rw [← trimStart_append hbefore (trimStart s), ← hs]
  rw [trim, hstart, trim]

/-- The end may be trimmed first. -/
theorem trim_trimEnd (s : List Char) : trim (trimEnd s) = trim s := by
  obtain ⟨after, hafter, hs⟩ := exists_eq_trimEnd_append s
  rw [← trim_append hafter (trimEnd s), ← hs]

theorem trim_trim (s : List Char) : trim (trim s) = trim s :=
  (trim_trimEnd (trimStart s)).trans (trim_trimStart s)

/-- No blanks are lost in front of a character that is not blank but those at the start. -/
theorem trimStart_append_cons {c : Char} (h : isBlank c = false) (s t : List Char) :
    trimStart (s ++ c :: t) = trimStart s ++ c :: t := by
  induction s with
  | nil => exact trimStart_cons_of_not_blank h
  | cons d s ih =>
    by_cases hd : isBlank d = true
    · rw [List.cons_append, trimStart_cons_of_blank hd, trimStart_cons_of_blank hd, ih]
    · rw [Bool.not_eq_true] at hd
      rw [List.cons_append, trimStart_cons_of_not_blank hd, trimStart_cons_of_not_blank hd,
        List.cons_append]

theorem trimEnd_append_cons {c : Char} (h : isBlank c = false) (s t : List Char) :
    trimEnd (s ++ c :: t) = s ++ c :: trimEnd t := by
  have hreverse : (s ++ c :: t).reverse = t.reverse ++ c :: s.reverse := by simp
  rw [trimEnd, hreverse, ← trimStart, trimStart_append_cons h, trimStart, trimEnd]
  simp

/-- Around a character that is not blank, each side is trimmed at its outer end. -/
theorem trim_append_cons {c : Char} (h : isBlank c = false) (s t : List Char) :
    trim (s ++ c :: t) = trimStart s ++ c :: trimEnd t := by
  rw [trim, trimStart_append_cons h, trimEnd_append_cons h]

/-- A trimmed text starts with the first character that is not blank. -/
theorem head?_trim (s : List Char) : (trim s).head? = s.find? fun c => !isBlank c := by
  cases hfind : s.find? fun c => !isBlank c with
  | none =>
    have hall : ∀ c ∈ s, isBlank c = true := by simpa [List.find?_eq_none] using hfind
    have hnil : trim s = [] := by
      rw [trim, trimStart_eq_nil_of_all hall]
      rfl
    rw [hnil, List.head?_nil]
  | some c =>
    obtain ⟨hc, before, after, rfl, hbefore⟩ := List.find?_eq_some_iff_append.1 hfind
    have hall : ∀ d ∈ before, isBlank d = true := by simpa using hbefore
    rw [trim_append_cons (by simpa using hc), trimStart_eq_nil_of_all hall, List.nil_append,
      List.head?_cons]

/-! ## Lines -/

theorem extendFirst_cons (c : Char) (line : List Char) (rest : List (List Char)) :
    extendFirst c (line :: rest) = (c :: line) :: rest := rfl

/-- A line feed ends a line, which has lost a carriage return in front of it. -/
theorem exists_lines_append_cons {line : List Char} (h : '\n' ∉ line) (s : List Char) :
    ∃ first, (line = first ∨ line = first ++ ['\r']) ∧
      lines (line ++ '\n' :: s) = first :: lines s := by
  induction line with
  | nil => exact ⟨[], .inl rfl, lines.eq_2 s⟩
  | cons c t ih =>
    rw [List.mem_cons, not_or] at h
    obtain ⟨first, hfirst, hlines⟩ := ih h.2
    by_cases hreturn : c = '\r' ∧ t = []
    · rw [hreturn.1, hreturn.2]
      exact ⟨[], .inr rfl, lines.eq_3 s⟩
    · have hstep : lines (c :: (t ++ '\n' :: s)) = extendFirst c (lines (t ++ '\n' :: s)) := by
        refine lines.eq_4 c _ (Ne.symm h.1) fun u hc hu => hreturn ⟨hc, ?_⟩
        cases t with
        | nil => rfl
        | cons d t => exact absurd ((List.cons.inj hu).1 ▸ List.mem_cons_self) h.2
      refine ⟨c :: first, hfirst.imp (congrArg (c :: ·)) (congrArg (c :: ·)), ?_⟩
      rw [List.cons_append, hstep, hlines, extendFirst_cons]

/-- A line of a text has lost a carriage return at most, which trimming takes away anyway. -/
theorem exists_lines_eq_cons {line : List Char} (h : '\n' ∉ line) (s : List Char) :
    ∃ first, trim first = trim line ∧ lines (line ++ '\n' :: s) = first :: lines s := by
  have hreturn : ∀ c ∈ ['\r'], isBlank c = true := List.forall_mem_singleton.2 (by decide)
  obtain ⟨first, hfirst, hlines⟩ := exists_lines_append_cons h s
  refine ⟨first, ?_, hlines⟩
  rcases hfirst with rfl | rfl
  · rfl
  · exact (trim_append hreturn first).symm

end FilterTemplate.Text
