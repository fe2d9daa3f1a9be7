/-
  FilterTemplate.Proofs.Value.LiteralForm

  The two forms of a literal. Strings, timestamps, arrays and objects are
  quoted; every other value is a bare word of letters, digits, points and
  dashes. `quotedContent?` tells the forms apart and gives what is quoted.
-/
import FilterTemplate.Value.Literal

namespace FilterTemplate

/-! ## Bare words -/

namespace Text

/-- The character may stand in a bare word. -/
def isBareChar (c : Char) : Bool :=
  c.isAlphanum || c == '.' || c == '-'

/-- A word that needs no quotes. -/
def IsBare (s : List Char) : Prop :=
  s ≠ [] ∧ ∀ c ∈ s, isBareChar c = true

theorem IsBare.not_mem {s : List Char} (h : IsBare s) {c : Char} (hc : isBareChar c = false) :
    c ∉ s := by
  intro hm
  rw [h.2 c hm] at hc
  exact absurd hc (by decide)

theorem isBare_of_all {s : List Char} (hne : s ≠ []) (h : s.all isBareChar = true) : IsBare s :=
  ⟨hne, List.all_eq_true.1 h⟩

theorem IsBare.cons {c : Char} {s : List Char} (hc : isBareChar c = true) (h : IsBare s) :
    IsBare (c :: s) :=
  ⟨List.cons_ne_nil c s, List.forall_mem_cons.2 ⟨hc, h.2⟩⟩

theorem isBareChar_of_isDigit {c : Char} (h : c.isDigit = true) : isBareChar c = true := by
  simp [isBareChar, Char.isAlphanum, h]

end Text

open Text

theorem isBare_toDigits (n : Nat) : IsBare (Nat.toDigits 10 n) :=
  ⟨Nat.toDigits_ne_nil, fun _ hc =>
    isBareChar_of_isDigit (Nat.isDigit_of_mem_toDigits (by decide) (by decide) hc)⟩

theorem isBare_integerText (i : Int) : IsBare (integerText i) := by
  rw [integerText]
  split
  · exact (isBare_toDigits _).cons (by decide)
  · exact isBare_toDigits _

/-- Every place of a decimal number is a digit or the point. -/
theorem Decimal.isBare_positional (d : Decimal) : IsBare (d.positional []) := by
  have hdigits := isBare_toDigits d.digits
  have hzeros : ∀ n, ∀ c ∈ List.replicate n '0', isBareChar c = true := by
    intro n c hc
    rw [List.eq_of_mem_replicate hc]
    decide
  simp only [positional, List.append_nil]
  split
  · refine ⟨fun h => hdigits.1 (List.append_eq_nil_iff.1 h).1, ?_⟩
    exact List.forall_mem_append.2 ⟨hdigits.2, hzeros _⟩
  · split
    · refine ⟨by simp, List.forall_mem_append.2 ⟨?_, List.forall_mem_cons.2 ⟨by decide, ?_⟩⟩⟩
      · exact fun c hc => hdigits.2 c (List.mem_of_mem_take hc)
      · exact fun c hc => hdigits.2 c (List.mem_of_mem_drop hc)
    · refine ⟨List.cons_ne_nil _ _, ?_⟩
      rw [List.forall_mem_cons, List.forall_mem_cons, List.forall_mem_append]
      exact ⟨by decide, by decide, hzeros _, hdigits.2⟩

theorem Binary64.isBare_literal (x : Binary64) : IsBare x.literal := by
  have hsign : ∀ s, IsBare s → IsBare ((if x.isNegative then ['-'] else []) ++ s) := by
    intro s hs
    split
    · exact hs.cons (by decide)
    · exact hs
  simp only [literal]
  split
  · exact isBare_of_all (by decide) (by decide)
  · split
    · exact hsign _ (isBare_of_all (by decide) (by decide))
    · split
      · exact isBare_of_all (by decide) (by decide)
      · exact hsign _ (Decimal.isBare_positional _)

/-! ## Quoted and bare literals -/

namespace Value

/-- What the literal of a value quotes, if it is quoted. -/
def quotedContent? (v : Value) : Option (List Char) :=
  match v.simplified with
  | .string s => some s.toList
  | .timestamp t => some (t.text ' ')
  | .json j => some (j.text .compact)
  | _ => none

theorem literal_eq_quoted {v : Value} {s : List Char} (h : v.quotedContent? = some s) :
    v.literal = quoted s := by
  rw [quotedContent?] at h
  rw [literal]
  split at h
  · next heq => rw [heq, ← Option.some.inj h, literalText]
  · next heq => rw [heq, ← Option.some.inj h, literalText]
  · next heq => rw [heq, ← Option.some.inj h, literalText]
  · exact absurd h (by simp)

theorem isBare_literal {v : Value} (h : v.quotedContent? = none) : IsBare v.literal := by
  rw [quotedContent?] at h
  rw [literal]
  cases hv : v.simplified with
  | int i => exact isBare_integerText i.toInt
  | uint n => exact isBare_toDigits n.toNat
  | float x => exact x.isBare_literal
  | boolean b => cases b <;> exact isBare_of_all (by decide) (by decide)
  | null => exact isBare_of_all (by decide) (by decide)
  | string s => simp [hv] at h
  | timestamp t => simp [hv] at h
  | json j => simp [hv] at h

theorem literal_quoted_or_bare (v : Value) :
    (∃ s, v.quotedContent? = some s ∧ v.literal = quoted s) ∨
      v.quotedContent? = none ∧ IsBare v.literal := by
  cases h : v.quotedContent? with
  | none => exact .inr ⟨rfl, isBare_literal h⟩
  | some s => exact .inl ⟨s, rfl, literal_eq_quoted h⟩

/-- The first character of a literal tells whether it is quoted. -/
theorem head?_literal_eq_quote_iff (v : Value) :
    v.literal.head? = some '\'' ↔ v.quotedContent?.isSome = true := by
  rcases literal_quoted_or_bare v with ⟨s, hs, hv⟩ | ⟨hs, hv⟩
  · simp [hs, hv, quoted]
  · have hnot : '\'' ∉ v.literal := hv.not_mem (by decide)
    simp only [hs, Option.isSome_none, Bool.false_eq_true, iff_false]
    exact fun h => hnot (List.mem_of_mem_head? h)

end Value

/-! ## The end of what is quoted -/

/-- The text of an array or an object ends in its closing mark. -/
theorem Json.getLast?_text_of_isContainer {j : Json} (h : j.isContainer = true)
    (layout : Layout) :
    (j.text layout).getLast? = some ']' ∨ (j.text layout).getLast? = some '\x7d' := by
  have hlast : ∀ (opening closing : Char) (pieces : List (List Char)),
      (layout.container 0 opening closing pieces).getLast? = some closing := by
    intro opening closing pieces
    cases pieces with
    | nil => rfl
    | cons piece rest => rw [Layout.container, List.getLast?_append]; rfl
  cases j with
  | array items => exact .inl (hlast '[' ']' _)
  | ordered members => exact .inr (hlast '\x7b' '\x7d' _)
  | _ => exact absurd h (by simp [isContainer])

theorem Instant.getLast?_text (separator : Char) (t : Instant) :
    (t.text separator).getLast? = some 'Z' := by
  simp [text, List.getLast?_append, List.getLast?_cons]

namespace Value

/-- The value is a string, or a JSON string, that ends in a backslash. -/
def EndsInBackslash (v : Value) : Prop :=
  ∃ s, v.simplified = .string s ∧ s.toList.getLast? = some '\\'

theorem isContainer_of_simplified {v : Value} {j : Json} (h : v.simplified = .json j) :
    j.isContainer = true := by
  cases v with
  | json i =>
    have hscalar := isScalar_ofJson i
    rw [simplified] at h
    rw [h] at hscalar
    cases i with
    | array items => rw [← Value.json.inj h]; rfl
    | ordered members => rw [← Value.json.inj h]; rfl
    | _ => exact absurd hscalar (by simp [isScalar, Json.isContainer])
  | _ => exact absurd h (by simp [simplified])

/-- What is quoted ends in a backslash only in a string that does so. -/
theorem getLast?_quotedContent {v : Value} {s : List Char} (h : v.quotedContent? = some s) :
    s.getLast? = some '\\' ↔ v.EndsInBackslash := by
  rw [quotedContent?] at h
  cases hv : v.simplified with
  | string text =>
    simp only [hv, Option.some.injEq] at h
    subst h
    constructor
    · exact fun hlast => ⟨text, hv, hlast⟩
    · rintro ⟨text', htext, hlast⟩
      rw [hv, Value.string.injEq] at htext
      rwa [htext]
  | timestamp t =>
    simp only [hv, Option.some.injEq] at h
    rw [← h, t.getLast?_text, EndsInBackslash]
    simp [hv]
  | json j =>
    simp only [hv, Option.some.injEq] at h
    rw [← h, EndsInBackslash]
    -- Only arrays and objects are left as JSON, and their text ends in a bracket or brace.
    rcases Json.getLast?_text_of_isContainer (isContainer_of_simplified hv) .compact with hj | hj
    · simp [hj, hv]
    · simp [hj, hv]
  | _ => simp [hv] at h

theorem endsInBackslash_iff_quotedContent? (v : Value) :
    (∃ s ∈ v.quotedContent?, s.getLast? = some '\\') ↔ v.EndsInBackslash := by
  constructor
  · rintro ⟨s, hs, hlast⟩
    exact (getLast?_quotedContent hs).1 hlast
  · rintro ⟨text, htext, hlast⟩
    exact ⟨text.toList, by rw [quotedContent?, htext]; rfl, hlast⟩

instance : DecidablePred EndsInBackslash := fun v =>
  decidable_of_iff _ v.endsInBackslash_iff_quotedContent?

end Value

end FilterTemplate
