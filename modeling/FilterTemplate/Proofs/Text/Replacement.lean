/-
  FilterTemplate.Proofs.Text.Replacement

  Where a replacement can be cut in two: wherever no occurrence reaches across.
  A text without the first character of the pattern stays as it is, whatever
  follows it, and so does a text without the last one, whatever comes before
  it. A character that the pattern lacks parts the text.
-/
import FilterTemplate.Text.Replace

namespace FilterTemplate.Text

/-- A prefix without a certain character ends before the first such character. -/
theorem prefix_of_prefix_append_cons {pattern s t : List Char} {c : Char} (hc : c ∉ pattern)
    (h : pattern <+: s ++ c :: t) : pattern <+: s := by
  rcases List.prefix_or_prefix_of_prefix h (List.prefix_append s (c :: t)) with h' | ⟨u, rfl⟩
  · exact h'
  · -- The pattern covers all of `s`, so it either stops there or goes on with `c`.
    rw [List.prefix_append_right_inj] at h
    rcases List.prefix_cons_iff.1 h with rfl | ⟨v, rfl, -⟩
    · simp
    · exact absurd (by simp) hc

/-- A text without the first character of the pattern is passed over. -/
theorem replaceAll_append_of_head_not_mem {p : Char} {s : List Char} (h : p ∉ s)
    (pattern replacement t : List Char) :
    replaceAll (p :: pattern) replacement (s ++ t) =
      s ++ replaceAll (p :: pattern) replacement t := by
  induction s with
  | nil => rfl
  | cons c s ih =>
    rw [List.mem_cons, not_or] at h
    have hc : ¬ p :: pattern <+: c :: (s ++ t) := fun hp => h.1 (List.cons_prefix_cons.1 hp).1
    rw [List.cons_append, replaceAll_cons_of_not_isPrefix hc, ih h.2, List.cons_append]

theorem replaceAll_of_head_not_mem {p : Char} {s : List Char} (h : p ∉ s)
    (pattern replacement : List Char) : replaceAll (p :: pattern) replacement s = s := by
  simpa using replaceAll_append_of_head_not_mem h pattern replacement []

/-- Where every occurrence that begins before a text ends before it too, the text
and what is before it are each replaced by itself. -/
theorem replaceAll_append {pattern t : List Char} (hp : pattern ≠ [])
    (hcut : ∀ u, pattern <+: u ++ t → pattern <+: u) (replacement s : List Char) :
    replaceAll pattern replacement (s ++ t) =
      replaceAll pattern replacement s ++ replaceAll pattern replacement t := by
  -- An occurrence at the start takes more than one character away, hence the
  -- induction on the length.
  induction hn : s.length using Nat.strongRecOn generalizing s with
  | ind n ih =>
    cases s with
    | nil => rw [List.nil_append, replaceAll_nil, List.nil_append]
    | cons d s =>
      by_cases h : pattern <+: d :: s
      · obtain ⟨u, hu⟩ := h
        have hlt : u.length < n := by
          have hpos := List.length_pos_iff.2 hp
          have hlen := congrArg List.length hu
          rw [List.length_append] at hlen
          omega
        rw [← hu, List.append_assoc, replaceAll_append_of_pattern hp,
          replaceAll_append_of_pattern hp, ih u.length hlt u rfl, List.append_assoc]
      · have h' : ¬ pattern <+: d :: (s ++ t) := fun hpre => h (hcut (d :: s) hpre)
        have hlt : s.length < n := by rw [← hn]; simp
        rw [List.cons_append, replaceAll_cons_of_not_isPrefix h', replaceAll_cons_of_not_isPrefix h,
          ih s.length hlt s rfl, List.cons_append]

/-- A character that the pattern lacks parts the text. -/
theorem replaceAll_append_cons {pattern : List Char} (hp : pattern ≠ []) {c : Char}
    (hc : c ∉ pattern) (replacement s t : List Char) :
    replaceAll pattern replacement (s ++ c :: t) =
      replaceAll pattern replacement s ++ c :: replaceAll pattern replacement t := by
  have hcut : ∀ u, pattern <+: u ++ c :: t → pattern <+: u := fun u =>
    prefix_of_prefix_append_cons hc
  have hnot : ¬ pattern <+: c :: t := fun h => hp (List.prefix_nil.1 (hcut [] h))
  rw [replaceAll_append hp hcut, replaceAll_cons_of_not_isPrefix hnot]

theorem replaceAll_eq_self {pattern s : List Char} (h : ¬ pattern <:+: s)
    (replacement : List Char) : replaceAll pattern replacement s = s := by
  induction s with
  | nil => exact replaceAll_nil pattern replacement
  | cons c s ih =>
    have hpre : ¬ pattern <+: c :: s := fun hp => h hp.isInfix
    have hrest : ¬ pattern <:+: s := fun hi => h (hi.trans (List.suffix_cons c s).isInfix)
    rw [replaceAll_cons_of_not_isPrefix hpre, ih hrest]

/-- A text without the last character of the pattern is passed over too, whatever
comes before it. -/
theorem replaceAll_append_of_last_not_mem {p : Char} {t : List Char} (h : p ∉ t)
    (pattern replacement s : List Char) :
    replaceAll (pattern ++ [p]) replacement (s ++ t) =
      replaceAll (pattern ++ [p]) replacement s ++ t := by
  have hcut : ∀ u, pattern ++ [p] <+: u ++ t → pattern ++ [p] <+: u := by
    intro u hpre
    rcases List.prefix_or_prefix_of_prefix hpre (List.prefix_append u t) with hu | hu
    · exact hu
    · rcases List.prefix_concat_iff.1 hu with rfl | ⟨w, rfl⟩
      · exact List.prefix_rfl
      · -- The occurrence ends behind `u`, so its last character is one of `t`.
        rw [List.append_assoc, List.prefix_append_right_inj] at hpre
        exact absurd (hpre.subset (by simp)) h
  have hnot : ¬ pattern ++ [p] <:+: t := fun hi => h (hi.subset (by simp))
  rw [replaceAll_append (by simp) hcut, replaceAll_eq_self hnot]

end FilterTemplate.Text
