/-
  FilterTemplate.Proofs.Value.Delimiting

  What a literal tells of itself: where it ends and what it quotes.

  A reader that takes a bare word, or else the text up to the first quote that
  no backslash stands before, finds the end of every literal but one kind: a
  string that ends in a backslash, whose closing quote looks escaped, so that
  the reader goes on into what follows. What is quoted can be read back from any
  literal, that kind too, and so values that quote different texts have
  different literals.
-/
import FilterTemplate.Proofs.Text.Quoting
import FilterTemplate.Proofs.Value.LiteralForm

namespace FilterTemplate.Value

open Text

/-! ## Where a literal ends -/

theorem simplified_eq_string_iff {v : Value} {s : String} :
    v.simplified = .string s ↔ v = .string s ∨ v = .json (.string s) := by
  cases v with
  | json j =>
    cases j with
    | number n =>
      cases n with
      | int i hi =>
        -- A whole number becomes one of two kinds, neither of them a string.
        rw [simplified, ofJson]
        split <;> simp
      | float x hx => simp [simplified, ofJson]
    | _ => simp [simplified, ofJson]
  | _ => simp [simplified]

/-- No string in the value, bare or as JSON, ends in a backslash. -/
theorem not_endsInBackslash_iff (v : Value) :
    ¬ v.EndsInBackslash ↔
      ∀ s : String, v = .string s ∨ v = .json (.string s) → s.toList.getLast? ≠ some '\\' := by
  constructor
  · intro h s hs hlast
    exact h ⟨s, simplified_eq_string_iff.2 hs, hlast⟩
  · rintro h ⟨s, hs, hlast⟩
    exact h s (simplified_eq_string_iff.1 hs) hlast

/-- Every literal is a bare word or in quotes. One in quotes, whatever follows it,
closes at its last character unless it is that of a string that ends in a
backslash. That one has no closing quote in it, and a reader takes it together
with the text up to the next quote that closes. -/
theorem literal_isBare_or_closes (v : Value) (rest : List Char) :
    IsBare v.literal ∨
      ∃ content, v.literal = '\'' :: (content ++ ['\'']) ∧
        (splitAtClose '\'' (v.literal ++ rest).tail = some (content, rest) ↔
          ∀ s : String, v = .string s ∨ v = .json (.string s) →
            s.toList.getLast? ≠ some '\\') ∧
        ∀ s : String, v = .string s ∨ v = .json (.string s) → s.toList.getLast? = some '\\' →
          splitAtClose '\'' v.literal.tail = none ∧
          splitAtClose '\'' (v.literal ++ rest).tail =
            (splitAtClose '\'' rest).map fun (more, behind) =>
              (content ++ '\'' :: more, behind) := by
  rcases v.literal_quoted_or_bare with ⟨text, hcontent, hliteral⟩ | ⟨-, hbare⟩
  · -- Behind the opening quote the reader meets the escaped text, its closing quote
    -- and what follows.
    have htail : ∀ t, (v.literal ++ t).tail = escapeQuotes text ++ '\'' :: t := by
      intro t
      rw [hliteral, quoted_append, List.tail_cons]
    refine .inr ⟨escapeQuotes text, hliteral, ?_, ?_⟩
    · rw [htail, splitAtClose_escapeQuotes_eq_some_iff, ← not_endsInBackslash_iff,
        ← getLast?_quotedContent hcontent]
    · intro s hs hlast
      have hends : v.EndsInBackslash := ⟨s, simplified_eq_string_iff.2 hs, hlast⟩
      have htext : text.getLastD '\'' = '\\' :=
        getLastD_quote_eq_backslash_iff.2 ((getLast?_quotedContent hcontent).2 hends)
      have hscan : ∀ t, splitAtClose '\'' (v.literal ++ t).tail =
          (splitAtClose '\'' t).map fun (more, behind) =>
            (escapeQuotes text ++ '\'' :: more, behind) := by
        intro t
        rw [htail, splitAtClose_escapeQuotes_of_backslash htext]
      have hnone := hscan []
      rw [List.append_nil] at hnone
      exact ⟨hnone, hscan rest⟩
  · exact .inl hbare

/-- A JSON string with a quote and a backslash at its end, in front of another
comparison: the literal has no closing quote, and the reader stops at the quote
that should open the next literal. With the two turned around it stops where the
literal ends. -/
theorem literal_isBare_or_closes_of_backslash_at_end :
    let rest := " || b='c'".toList
    splitAtClose '\'' (Value.json (.string "a'\\")).literal.tail = none ∧
      splitAtClose '\'' ((Value.json (.string "a'\\")).literal ++ rest).tail =
        some ("a\\'\\' || b=".toList, "c'".toList) ∧
      splitAtClose '\'' ((Value.string "a\\'").literal ++ rest).tail =
        some ("a\\\\'".toList, rest) := by
  intro rest
  have hbare : ∀ v : Value, '\'' ∈ v.literal → ¬ IsBare v.literal := fun v hquote h =>
    h.not_mem (by decide) hquote
  have hcontent : ∀ {content content' : List Char},
      '\'' :: (content ++ ['\'']) = '\'' :: (content' ++ ['\'']) → content = content' :=
    fun h => List.append_cancel_right (List.cons.inj h).2
  have hjson : (Value.json (.string "a'\\")).literal = '\'' :: ("a\\'\\".toList ++ ['\'']) := by
    decide +kernel
  have hstring : (Value.string "a\\'").literal = '\'' :: ("a\\\\'".toList ++ ['\'']) := by
    decide +kernel
  -- Both literals are in quotes; what each quotes is told by its characters.
  obtain ⟨c, hc, -, hopen⟩ := (literal_isBare_or_closes (.json (.string "a'\\")) rest).resolve_left
    (hbare _ (by decide +kernel))
  obtain ⟨d, hd, hclosed, -⟩ := (literal_isBare_or_closes (.string "a\\'") rest).resolve_left
    (hbare _ (by decide +kernel))
  obtain ⟨hnone, hscan⟩ := hopen "a'\\" (.inr rfl) (by decide +kernel)
  have hnext : splitAtClose '\'' rest = some (" || b=".toList, "c'".toList) := by decide +kernel
  refine ⟨hnone, ?_, ?_⟩
  · rw [hscan, hnext, hcontent (hc.symm.trans hjson)]
    decide +kernel
  · have hend : ∀ s : String,
        Value.string "a\\'" = .string s ∨ Value.string "a\\'" = .json (.string s) →
        s.toList.getLast? ≠ some '\\' := by
      rintro s (hs | hs)
      · rw [← Value.string.inj hs]
        decide +kernel
      · cases hs
    rw [hclosed.2 hend, hcontent (hd.symm.trans hstring)]

/-! ## What a literal quotes -/

theorem unquoted_literal {v : Value} {s : List Char} (h : v.quotedContent? = some s) :
    unquoted v.literal = s := by
  rw [literal_eq_quoted h, unquoted_quoted]

theorem quotedContent?_json {j : Json} (h : j.isContainer = true) :
    (Value.json j).quotedContent? = some (j.text .compact) := by
  cases j with
  | array items => rfl
  | ordered members => rfl
  | _ => exact absurd h (by simp [Json.isContainer])

/-- Literals in quotes are equal only if the texts that they quote are. -/
theorem quotedContent?_inj {v w : Value} {s t : List Char} (hv : v.quotedContent? = some s)
    (hw : w.quotedContent? = some t) (h : v.literal = w.literal) : s = t := by
  rw [← unquoted_literal hv, h, unquoted_literal hw]

/-- Quoting loses nothing: without the ends and without the backslash right before
each quote, the quoted text is the text. So strings have different literals where
they differ, arrays and objects where their JSON texts do, and the JSON text of an
array or object is read back from its literal. -/
theorem unquoted_quoted_and_literal_inj :
    (∀ s, unquoted (quoted s) = s) ∧
      Function.Injective quoted ∧
      (∀ s t : String, (Value.string s).literal = (Value.string t).literal → s = t) ∧
      (∀ i j : Json, i.isContainer = true → j.isContainer = true →
        (Value.json i).literal = (Value.json j).literal → i.text .compact = j.text .compact) ∧
      (∀ (s : String) (j : Json), j.isContainer = true →
        (Value.string s).literal = (Value.json j).literal → s.toList = j.text .compact) ∧
      ∀ j : Json, j.isContainer = true →
        unquoted (Value.json j).literal = j.text .compact := by
  have hstring : ∀ s : String, (Value.string s).quotedContent? = some s.toList := fun _ => rfl
  refine ⟨unquoted_quoted, quoted_injective, ?_, ?_, ?_, ?_⟩
  · exact fun s t h => String.toList_inj.1 (quotedContent?_inj (hstring s) (hstring t) h)
  · exact fun i j hi hj h => quotedContent?_inj (quotedContent?_json hi) (quotedContent?_json hj) h
  · exact fun s j hj h => quotedContent?_inj (hstring s) (quotedContent?_json hj) h
  · exact fun j hj => unquoted_literal (quotedContent?_json hj)

/-- Two strings that a reader could take for each other, the quote alone and the
quote with a backslash, and an array whose text has a quote of either kind. -/
theorem unquoted_quoted_and_literal_inj_of_backslashes :
    let j : Json := .array [.string "it's", .string "\"\\"]
    (Value.string "'").literal ≠ (Value.string "\\'").literal ∧
      unquoted (Value.json j).literal = "[\"it's\",\"\\\"\\\\\"]".toList := by
  intro j
  obtain ⟨-, -, hstrings, -, -, hread⟩ := unquoted_quoted_and_literal_inj
  refine ⟨fun h => absurd (hstrings _ _ h) (by decide), (hread j rfl).trans ?_⟩
  decide +kernel

end FilterTemplate.Value
