/-
  FilterTemplate.Proofs.Text.Quoting

  Where a quoted text closes. Escaping puts a backslash before each quote of the
  text, so a scan from the opening quote passes over all of them and stops at
  the closing quote, unless the text itself ends in a backslash, which the
  closing quote then seems to be escaped by. Emptying the quoted parts of a text
  is such a scan for each of them. What was quoted is read back in any case: the
  backslashes put in are just those right before a quote.
-/
import FilterTemplate.Text.Quoted

namespace FilterTemplate.Text

/-! ## Escaping -/

theorem escapeQuotes_append (s t : List Char) :
    escapeQuotes (s ++ t) = escapeQuotes s ++ escapeQuotes t := by
  induction s with
  | nil => rfl
  | cons c s ih =>
    by_cases hc : c = '\''
    · rw [List.cons_append, escapeQuotes, escapeQuotes, if_pos hc, if_pos hc, ih]
      rfl
    · rw [List.cons_append, escapeQuotes, escapeQuotes, if_neg hc, if_neg hc, ih]
      rfl

/-- Only a text without quotes is its own escaped form. -/
theorem escapeQuotes_eq_self_iff {s : List Char} : escapeQuotes s = s ↔ '\'' ∉ s := by
  refine ⟨fun h hmem => ?_, escapeQuotes_eq_self⟩
  have hlength := length_escapeQuotes s
  have hcount : 0 < s.count '\'' := List.count_pos_iff.2 hmem
  rw [h] at hlength
  omega

theorem withBackslashes_cons_quote (n : Nat) (s : List Char) :
    withBackslashes n ('\'' :: s) =
      List.replicate n '\\' ++ '\'' :: withBackslashes n s := by
  rw [withBackslashes, List.flatMap_cons, if_pos rfl, List.append_assoc]
  rfl

theorem withBackslashes_cons_of_ne (n : Nat) {c : Char} (hc : c ≠ '\'') (s : List Char) :
    withBackslashes n (c :: s) = c :: withBackslashes n s := by
  rw [withBackslashes, List.flatMap_cons, if_neg hc]
  rfl

theorem withBackslashes_zero (s : List Char) : withBackslashes 0 s = s := by
  induction s with
  | nil => rfl
  | cons c s ih =>
    by_cases hc : c = '\''
    · rw [hc, withBackslashes_cons_quote, ih]
      rfl
    · rw [withBackslashes_cons_of_ne 0 hc, ih]

/-- Escaping puts one more backslash before each quote, behind those that are there. -/
theorem escapeQuotes_withBackslashes (n : Nat) (s : List Char) :
    escapeQuotes (withBackslashes n s) = withBackslashes (n + 1) s := by
  induction s with
  | nil => rfl
  | cons c s ih =>
    by_cases hc : c = '\''
    · have hplain : '\'' ∉ List.replicate n '\\' := fun hmem =>
        absurd (List.eq_of_mem_replicate hmem) (by decide)
      rw [hc, withBackslashes_cons_quote, withBackslashes_cons_quote, escapeQuotes_append,
        escapeQuotes_eq_self hplain, escapeQuotes, if_pos rfl, ih, List.replicate_succ',
        List.append_assoc]
      rfl
    · rw [withBackslashes_cons_of_ne n hc, withBackslashes_cons_of_ne (n + 1) hc, escapeQuotes,
        if_neg hc, ih]

theorem length_withBackslashes (n : Nat) (s : List Char) :
    (withBackslashes n s).length = s.length + n * s.count '\'' := by
  induction s with
  | nil => simp [withBackslashes]
  | cons c s ih =>
    by_cases hc : c = '\''
    · rw [hc, withBackslashes_cons_quote, List.length_append, List.length_replicate,
        List.length_cons, List.length_cons, ih, List.count_cons_self, Nat.mul_succ]
      omega
    · rw [withBackslashes_cons_of_ne n hc, List.length_cons, List.length_cons, ih,
        List.count_cons_of_ne hc]
      omega

/-! ## Scanning -/

theorem quoted_append (s t : List Char) :
    quoted s ++ t = '\'' :: (escapeQuotes s ++ '\'' :: t) := by
  rw [quoted, List.cons_append, List.append_assoc, List.singleton_append]

/-- The scan passes over an escaped text and goes on behind it as behind the last
character of the text. -/
theorem splitAtClose_escapeQuotes_append (previous : Char) (s t : List Char) :
    splitAtClose previous (escapeQuotes s ++ t) =
      (splitAtClose (s.getLastD previous) t).map fun (content, rest) =>
        (escapeQuotes s ++ content, rest) := by
  induction s generalizing previous with
  | nil =>
    have hid : (fun p : List Char × List Char => (escapeQuotes [] ++ p.1, p.2)) = id := rfl
    rw [hid, Option.map_id]
    rfl
  | cons c s ih =>
    rw [List.getLastD_cons]
    by_cases hc : c = '\''
    · -- The backslash of the escape keeps its quote from closing.
      subst hc
      have hslash : ¬ ('\\' = '\'' ∧ previous ≠ '\\') := fun hp => absurd hp.1 (by decide)
      have hquote : ¬ ('\'' = '\'' ∧ '\\' ≠ '\\') := fun hp => hp.2 rfl
      rw [escapeQuotes, if_pos rfl, List.cons_append, List.cons_append, splitAtClose,
        if_neg hslash, splitAtClose, if_neg hquote, ih, Option.map_map, Option.map_map]
      rfl
    · have hopen : ¬ (c = '\'' ∧ previous ≠ '\\') := fun hp => hc hp.1
      rw [escapeQuotes, if_neg hc, List.cons_append, splitAtClose, if_neg hopen, ih,
        Option.map_map]
      rfl

/-- Behind a text that does not end in a backslash the scan stops at the quote. -/
theorem splitAtClose_escapeQuotes {previous : Char} {s : List Char}
    (h : s.getLastD previous ≠ '\\') (t : List Char) :
    splitAtClose previous (escapeQuotes s ++ '\'' :: t) = some (escapeQuotes s, t) := by
  rw [splitAtClose_escapeQuotes_append, splitAtClose, if_pos ⟨rfl, h⟩]
  show some (escapeQuotes s ++ [], t) = some (escapeQuotes s, t)
  rw [List.append_nil]

/-- Behind a text that ends in a backslash the scan passes over the quote too. -/
theorem splitAtClose_escapeQuotes_of_backslash {previous : Char} {s : List Char}
    (h : s.getLastD previous = '\\') (t : List Char) :
    splitAtClose previous (escapeQuotes s ++ '\'' :: t) =
      (splitAtClose '\'' t).map fun (content, rest) =>
        (escapeQuotes s ++ '\'' :: content, rest) := by
  have hquote : ¬ ('\'' = '\'' ∧ s.getLastD previous ≠ '\\') := fun hp => hp.2 h
  rw [splitAtClose_escapeQuotes_append, splitAtClose, if_neg hquote, Option.map_map]
  rfl

/-- Behind an opening quote a text ends in a backslash just if it does so by itself. -/
theorem getLastD_quote_eq_backslash_iff {s : List Char} :
    s.getLastD '\'' = '\\' ↔ s.getLast? = some '\\' := by
  rw [List.getLastD_eq_getLast?]
  cases s.getLast? <;> simp

/-- From the opening quote the scan stops at the closing one just if the text does
not end in a backslash. -/
theorem splitAtClose_escapeQuotes_eq_some_iff (s t : List Char) :
    splitAtClose '\'' (escapeQuotes s ++ '\'' :: t) = some (escapeQuotes s, t) ↔
      s.getLast? ≠ some '\\' := by
  constructor
  · intro h hlast
    -- With a backslash at the end, what the scan passes over has the quote in it.
    rw [splitAtClose_escapeQuotes_of_backslash (getLastD_quote_eq_backslash_iff.2 hlast),
      Option.map_eq_some_iff] at h
    obtain ⟨p, -, hp⟩ := h
    have hcontent : escapeQuotes s ++ '\'' :: p.1 = escapeQuotes s := congrArg Prod.fst hp
    have hlength := congrArg List.length hcontent
    rw [List.length_append, List.length_cons] at hlength
    omega
  · intro hlast
    have hend : s.getLastD '\'' ≠ '\\' := fun heq =>
      hlast (getLastD_quote_eq_backslash_iff.1 heq)
    exact splitAtClose_escapeQuotes hend t

/-! ## Unquoting -/

/-- A quote never comes first in an escaped text: a backslash stands before it. -/
theorem head?_escapeQuotes_ne_quote (s : List Char) : (escapeQuotes s).head? ≠ some '\'' := by
  cases s with
  | nil => simp [escapeQuotes]
  | cons c s =>
    by_cases hc : c = '\''
    · simp [escapeQuotes, hc]
    · simp [escapeQuotes, hc]

/-- Only a backslash right before a quote is taken away. -/
theorem unescapeQuotes_cons {s : List Char} (h : s.head? ≠ some '\'') (c : Char) :
    unescapeQuotes (c :: s) = c :: unescapeQuotes s := by
  rw [unescapeQuotes]
  rintro t - rfl
  exact h rfl

/-- Each quote gains a backslash and loses it again. A backslash of the text itself
is safe: behind it comes no quote that has not its own. -/
theorem unescapeQuotes_escapeQuotes (s : List Char) : unescapeQuotes (escapeQuotes s) = s := by
  induction s with
  | nil => rfl
  | cons c s ih =>
    by_cases hc : c = '\''
    · rw [escapeQuotes, if_pos hc, unescapeQuotes, ih, hc]
    · rw [escapeQuotes, if_neg hc, unescapeQuotes_cons (head?_escapeQuotes_ne_quote s), ih]

theorem unquoted_quoted (s : List Char) : unquoted (quoted s) = s := by
  rw [unquoted, quoted, List.tail_cons, List.dropLast_concat, unescapeQuotes_escapeQuotes]

theorem quoted_injective : Function.Injective quoted :=
  Function.LeftInverse.injective unquoted_quoted

/-! ## Emptying -/

/-- Inside a quoted part nothing is kept up to the closing quote. -/
theorem collapseFrom_some (previous : Char) (s : List Char) :
    collapseFrom (some previous) s =
      match splitAtClose previous s with
      | none => []
      | some (_, rest) => '\'' :: collapseFrom none rest := by
  induction s generalizing previous with
  | nil => rfl
  | cons c s ih =>
    rw [collapseFrom, splitAtClose]
    by_cases hc : c = '\'' ∧ previous ≠ '\\'
    · rw [if_pos hc, if_pos hc, hc.1]
    · rw [if_neg hc, if_neg hc, ih]
      cases splitAtClose c s <;> rfl

/-- A quoted text in front is emptied if it does not end in a backslash. -/
theorem collapseQuoted_quoted_append {s : List Char} (h : s.getLast? ≠ some '\\')
    (t : List Char) : collapseQuoted (quoted s ++ t) = '\'' :: '\'' :: collapseQuoted t := by
  have hlast : s.getLastD '\'' ≠ '\\' := fun heq => h (getLastD_quote_eq_backslash_iff.1 heq)
  rw [quoted_append, collapseQuoted, collapseFrom, if_pos rfl, collapseFrom_some,
    splitAtClose_escapeQuotes hlast, collapseQuoted]

/-- The text stays as it is wherever it stands in front. -/
def IsCollapsed (s : List Char) : Prop :=
  ∀ t, collapseQuoted (s ++ t) = s ++ collapseQuoted t

theorem IsCollapsed.append {s t : List Char} (hs : IsCollapsed s) (ht : IsCollapsed t) :
    IsCollapsed (s ++ t) := by
  intro u
  rw [List.append_assoc, hs, ht, List.append_assoc]

theorem isCollapsed_of_not_mem {s : List Char} (h : '\'' ∉ s) : IsCollapsed s := by
  intro t
  induction s with
  | nil => rfl
  | cons c s ih =>
    rw [List.mem_cons, not_or] at h
    rw [List.cons_append, collapseQuoted, collapseFrom, if_neg (Ne.symm h.1)]
    exact congrArg (c :: ·) (ih h.2)

theorem isCollapsed_quotes : IsCollapsed ['\'', '\''] :=
  collapseQuoted_quoted_append (s := []) (by decide)

end FilterTemplate.Text
