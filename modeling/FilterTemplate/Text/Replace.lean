/-
  FilterTemplate.Text.Replace

  Replacing every occurrence of a pattern. Occurrences are found from left
  to right and do not overlap; the text put in is not searched again.
-/

namespace FilterTemplate.Text

/-- Replaces the occurrences of `pattern` after the first `skip` characters,
which belong to an occurrence already replaced and are dropped. -/
def replaceAfter (pattern replacement : List Char) : Nat → List Char → List Char
  | _, [] => []
  | skip + 1, _ :: s => replaceAfter pattern replacement skip s
  | 0, c :: s =>
    if pattern.isPrefixOf (c :: s) then
      replacement ++ replaceAfter pattern replacement (pattern.length - 1) s
    else
      c :: replaceAfter pattern replacement 0 s

/-- Replaces every occurrence of a nonempty `pattern`. -/
def replaceAll (pattern replacement s : List Char) : List Char :=
  replaceAfter pattern replacement 0 s

@[simp] theorem replaceAll_nil (pattern replacement : List Char) :
    replaceAll pattern replacement [] = [] := by
  simp [replaceAll, replaceAfter]

/-- Skipping is dropping. -/
theorem replaceAfter_eq_drop (pattern replacement : List Char) (skip : Nat) (s : List Char) :
    replaceAfter pattern replacement skip s =
      replaceAll pattern replacement (s.drop skip) := by
  induction skip generalizing s with
  | zero => simp [replaceAll]
  | succ k ih =>
    cases s with
    | nil => simp [replaceAfter]
    | cons c s => simp [replaceAfter, ih]

/-- An occurrence at the start is replaced and the search goes on behind it. -/
theorem replaceAll_append_of_pattern {pattern : List Char} (h : pattern ≠ [])
    (replacement s : List Char) :
    replaceAll pattern replacement (pattern ++ s) =
      replacement ++ replaceAll pattern replacement s := by
  cases pattern with
  | nil => exact absurd rfl h
  | cons p ps =>
    have hp : (p :: ps).isPrefixOf (p :: (ps ++ s)) = true :=
      List.isPrefixOf_iff_prefix.2 ⟨s, rfl⟩
    rw [List.cons_append, replaceAll, replaceAfter, if_pos hp, replaceAfter_eq_drop]
    simp

/-- A character where no occurrence starts stays. -/
theorem replaceAll_cons_of_not_isPrefix {pattern : List Char} {c : Char} {s : List Char}
    (h : ¬ pattern <+: c :: s) (replacement : List Char) :
    replaceAll pattern replacement (c :: s) = c :: replaceAll pattern replacement s := by
  have hp : ¬ pattern.isPrefixOf (c :: s) = true := fun hp =>
    h (List.isPrefixOf_iff_prefix.1 hp)
  rw [replaceAll, replaceAfter, if_neg hp]
  rfl

end FilterTemplate.Text
