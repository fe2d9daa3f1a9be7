/-
  FilterTemplate.Proofs.Value.Reading

  Typed texts that spell JSON, and typed texts in single quotes. No value begins
  or ends with a blank of any kind, so the trimmed text of a value is that
  value's own text, whatever white space stood around it, and it is not in
  single quotes. What is in single quotes is a string to the last character,
  even if it spells JSON, is empty or has blanks at its ends.
-/
import FilterTemplate.Proofs.Json.Values
import FilterTemplate.Proofs.Text.Trimming
import FilterTemplate.Value.Reading

namespace FilterTemplate

/-! ## Blanks -/

theorem Text.isBlank_of_isSpace {c : Char} (h : Json.Reader.isSpace c = true) :
    isBlank c = true := by
  simp only [Json.Reader.isSpace, Bool.or_eq_true, beq_iff_eq] at h
  rcases h with ((rfl | rfl) | rfl) | rfl <;> decide

theorem Text.isBlank_of_isSpaces {s : List Char} (h : Json.IsSpaces s) :
    ∀ c ∈ s, isBlank c = true :=
  fun c hc => isBlank_of_isSpace (h c hc)

theorem Text.isBlank_of_isDigit {c : Char} (h : c.isDigit = true) : isBlank c = false := by
  have hrange : 48 ≤ c.toNat ∧ c.toNat ≤ 57 := by
    simpa [Char.isDigit, UInt32.le_iff_toNat_le] using h
  rw [Bool.eq_false_iff]
  intro hblank
  simp only [isBlank, Bool.or_eq_true, Bool.and_eq_true, decide_eq_true_eq, beq_iff_eq] at hblank
  omega

namespace Json

open Text (StartsInk EndsInk)

/-! ## First characters -/

theorem Reader.isBlank_of_startsValue {c : Char} (h : startsValue c = true) :
    Text.isBlank c = false := by
  by_cases hdigit : c.isDigit = true
  · exact Text.isBlank_of_isDigit hdigit
  · simp only [startsValue, startsScalar, startsNumber, Bool.or_eq_true, beq_iff_eq, hdigit,
      Bool.false_eq_true, or_false] at h
    rcases h with (((((rfl | rfl) | rfl) | rfl) | rfl) | rfl) | rfl <;> decide

theorem startsInk_of_spells {budget : Nat} {t : List Char} {j : Json} (h : Spells budget t j) :
    StartsInk t := by
  obtain ⟨c, u, rfl, hc⟩ := Reader.exists_eq_cons_of_spells h
  exact ⟨c, u, rfl, Reader.isBlank_of_startsValue hc⟩

/-! ## Last characters -/

theorem endsInk_append_singleton {s : List Char} {c : Char} (h : Text.isBlank c = false) :
    EndsInk (s ++ [c]) :=
  ⟨s, c, rfl, h⟩

theorem endsInk_of_isDigits {s : List Char} (h : IsDigits s) : EndsInk s := by
  have hlast : s = s.dropLast ++ [s.getLast h.1] := (List.dropLast_concat_getLast h.1).symm
  rw [hlast]
  exact endsInk_append_singleton (Text.isBlank_of_isDigit (h.2 _ (List.getLast_mem h.1)))

theorem SpellsFraction.eq_nil_or_endsInk {s : List Char} {f : Option (List Char)}
    (h : SpellsFraction s f) : s = [] ∨ EndsInk s := by
  cases h with
  | none => exact .inl rfl
  | some hds => exact .inr ((endsInk_of_isDigits hds).append_left ['.'])

theorem SpellsExponent.eq_nil_or_endsInk {s : List Char} {e : Option Int}
    (h : SpellsExponent s e) : s = [] ∨ EndsInk s := by
  cases h with
  | none => exact .inl rfl
  | unsigned _ hds => exact .inr ((endsInk_of_isDigits hds).append_left [_])
  | plus _ hds => exact .inr ((endsInk_of_isDigits hds).append_left [_, '+'])
  | minus _ hds => exact .inr ((endsInk_of_isDigits hds).append_left [_, '-'])

/-- A numeral ends in a digit of its last part. -/
theorem endsInk_of_spellsUnsigned {negative : Bool} {t : List Char} {n : Reader.Numeral}
    (h : SpellsUnsigned negative t n) : EndsInk t := by
  cases h with
  | @intro whole fraction exponent f e hwhole hfraction hexponent =>
    rcases hexponent.eq_nil_or_endsInk with rfl | hexponent
    · rw [List.append_nil]
      rcases hfraction.eq_nil_or_endsInk with rfl | hfraction
      · rw [List.append_nil]
        exact endsInk_of_isDigits hwhole.1
      · exact hfraction.append_left whole
    · exact (hexponent.append_left fraction).append_left whole

theorem endsInk_of_spellsScalar {t : List Char} {j : Json} (h : SpellsScalar t j) :
    EndsInk t := by
  cases h with
  | null => exact ⟨['n', 'u', 'l'], 'l', rfl, by decide⟩
  | true => exact ⟨['t', 'r', 'u'], 'e', rfl, by decide⟩
  | false => exact ⟨['f', 'a', 'l', 's'], 'e', rfl, by decide⟩
  | number hn =>
    obtain ⟨numeral, hnumeral, -⟩ := hn
    cases hnumeral with
    | positive h => exact endsInk_of_spellsUnsigned h
    | negative h => exact (endsInk_of_spellsUnsigned h).append_left ['-']
  | string hs =>
    cases hs with
    | @intro body => exact ⟨'"' :: body, '"', rfl, by decide⟩

theorem endsInk_of_spells {budget : Nat} {t : List Char} {j : Json} (h : Spells budget t j) :
    EndsInk t := by
  cases budget with
  | zero => exact endsInk_of_spellsScalar h
  | succ budget =>
    rcases h with h | ⟨inner, js, -, rfl, -⟩ | ⟨ms, ⟨inner, -, rfl⟩, -⟩
    · exact endsInk_of_spellsScalar h
    · exact ⟨'[' :: inner, ']', rfl, by decide⟩
    · exact ⟨'\x7b' :: inner, '\x7d', rfl, by decide⟩

end Json

/-! ## Values -/

namespace Value

theorem betweenQuotes?_of_spells {budget : Nat} {t : List Char} {j : Json}
    (h : Json.Spells budget t j) : betweenQuotes? t = none := by
  obtain ⟨c, u, rfl, hc⟩ := Json.Reader.exists_eq_cons_of_spells h
  have hquote : c ≠ '\'' := Json.Reader.ne_of_startsValue hc (by decide)
  rw [betweenQuotes?.eq_def]
  split
  next heq => exact absurd (List.cons.inj heq).1 hquote
  next => rfl

/-- A typed text that spells JSON is the value that JSON stands for, if it nests no deeper than
the limit. -/
theorem ofText_of_padded {s : List Char} {j : Json}
    (h : Json.Padded (Json.Spells Json.Reader.nestingLimit) s j) :
    ofText s = .ofJson j ∧ ofText (Text.trim s) = .ofJson j := by
  cases h with
  | @intro before core after _ hbefore hcore hafter =>
    have hstart := Json.startsInk_of_spells hcore
    have hend := Json.endsInk_of_spells hcore
    have htrim : Text.trim (before ++ core ++ after) = core :=
      Text.trim_eq (Text.isBlank_of_isSpaces hbefore) hstart hend
        (Text.isBlank_of_isSpaces hafter)
    have hself : Text.trim core = core := by
      have hnone : ∀ c ∈ ([] : List Char), Text.isBlank c = true := by simp
      simpa using Text.trim_eq hnone hstart hend hnone
    have htrimmed : ofTrimmed core = .ofJson j := by
      rw [ofTrimmed, betweenQuotes?_of_spells hcore, Json.ofText_eq_ok_iff.2 (.of_spells hcore)]
    rw [ofText, ofText, htrim, hself]
    exact ⟨htrimmed, htrimmed⟩

theorem betweenQuotes?_append (s : List Char) :
    betweenQuotes? ('\'' :: (s ++ ['\''])) = some s := by
  rw [betweenQuotes?, List.getLast?_concat, if_pos rfl, List.dropLast_concat]

/-- Between quotes any text is a string as it stands. -/
theorem ofText_of_quotes {before after : List Char}
    (hbefore : ∀ c ∈ before, Text.isBlank c = true) (hafter : ∀ c ∈ after, Text.isBlank c = true)
    (s : List Char) :
    ofText (before ++ '\'' :: (s ++ ['\'']) ++ after) = .string (String.ofList s) := by
  -- The quotes are no blanks, so trimming stops at them.
  have hstart : Text.StartsInk ('\'' :: (s ++ ['\''])) := ⟨'\'', s ++ ['\''], rfl, by decide⟩
  have hend : Text.EndsInk ('\'' :: (s ++ ['\''])) := ⟨'\'' :: s, '\'', rfl, by decide⟩
  rw [ofText, Text.trim_eq hbefore hstart hend hafter, ofTrimmed, betweenQuotes?_append]

end Value

end FilterTemplate
