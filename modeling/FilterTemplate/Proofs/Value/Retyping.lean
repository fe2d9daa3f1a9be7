/-
  FilterTemplate.Proofs.Value.Retyping

  Literals that are typed. A bare literal other than that of a floating-point
  number spells the JSON form of its value, and so it is read as a value with
  the same literal. A literal in quotes is read as a string of what stands
  between the quotes, escapes and all: the string is not the one that was
  quoted, and each turn puts one more backslash before each of its quotes.
-/
import FilterTemplate.Proofs.Calendar.Instant
import FilterTemplate.Proofs.Json.Printing
import FilterTemplate.Proofs.Value.Delimiting
import FilterTemplate.Proofs.Value.Normalization
import FilterTemplate.Proofs.Value.Reading
import Mathlib.Logic.Function.Iterate

namespace FilterTemplate.Value

open Json (SpellsScalar spellsNumber_integerText)
open Text (quoted escapeQuotes withBackslashes)

/-! ## Bare literals -/

theorem toJson_simplified (v : Value) : v.simplified.toJson = v.toJson := by
  cases v with
  | json j => exact toJson_ofJson j
  | _ => rfl

/-- Only a floating-point number, bare or as JSON, has the literal of one. -/
theorem simplified_ne_float {v : Value} (hfloat : ∀ x, v ≠ .float x)
    (hjson : ∀ x hx, v ≠ .json (.number (.float x hx))) (x : Binary64) :
    v.simplified ≠ .float x := by
  cases v with
  | json j =>
    cases j with
    | number n =>
      cases n with
      | int i hi =>
        rw [simplified, ofJson]
        split <;> simp
      | float y hy => exact absurd rfl (hjson y hy)
    | _ => simp [simplified, ofJson]
  | float y => exact absurd rfl (hfloat y)
  | _ => simp [simplified]

/-- A bare literal is the JSON text of its value, unless that is a floating-point number. -/
theorem spellsScalar_literal {v : Value} (hbare : v.quotedContent? = none)
    (hfloat : ∀ x, v.simplified ≠ .float x) : SpellsScalar v.literal v.toJson := by
  rw [quotedContent?] at hbare
  rw [literal, ← toJson_simplified]
  cases hv : v.simplified with
  | int i => exact .number (spellsNumber_integerText i.toInt _)
  | uint n =>
    -- The digits of a number that is not negative are its text.
    have htext : integerText n.toNat = Nat.toDigits 10 n.toNat := by
      rw [integerText, if_neg (by omega), Int.natAbs_natCast]
    rw [literalText, ← htext]
    exact .number (spellsNumber_integerText n.toNat _)
  | boolean b =>
    cases b with
    | true => exact .true
    | false => exact .false
  | null => exact .null
  | float x => exact absurd hv (hfloat x)
  | string s => simp [hv] at hbare
  | timestamp t => simp [hv] at hbare
  | json j => simp [hv] at hbare

/-- Typed, such a literal is the value that JSON keeps of its own. -/
theorem retyped_of_bare {v : Value} (hbare : v.quotedContent? = none)
    (hfloat : ∀ x, v.simplified ≠ .float x) : v.retyped = v.normalized := by
  have hspells := spellsScalar_literal hbare hfloat
  exact (ofText_of_padded (.of_spells (Json.spells_of_scalar hspells))).1

theorem literal_retyped_of_bare {v : Value} (hbare : v.quotedContent? = none)
    (hfloat : ∀ x, v.simplified ≠ .float x) : v.retyped.literal = v.literal := by
  have hfits : v.FitsJson := by
    cases v with
    | timestamp t => simp [quotedContent?, simplified] at hbare
    | float x => exact absurd rfl (hfloat x)
    | _ => trivial
  rw [retyped_of_bare hbare hfloat, literal_normalized_of_fitsJson hfits]

/-! ## Literals in quotes -/

/-- Typed, a literal in quotes is a string with the escapes in it. -/
theorem retyped_of_quoted {v : Value} {s : List Char} (h : v.quotedContent? = some s) :
    v.retyped = .string (String.ofList (escapeQuotes s)) := by
  have hnone : ∀ c ∈ ([] : List Char), Text.isBlank c = true := by simp
  have hread := ofText_of_quotes hnone hnone (escapeQuotes s)
  rw [List.nil_append, List.append_nil] at hread
  rw [retyped, literal_eq_quoted h, quoted, hread]

theorem quotedContent?_retyped {v : Value} {s : List Char} (h : v.quotedContent? = some s) :
    v.retyped.quotedContent? = some (escapeQuotes s) := by
  rw [retyped_of_quoted h]
  exact congrArg some String.toList_ofList

theorem literal_retyped_of_quoted {v : Value} {s : List Char} (h : v.quotedContent? = some s) :
    v.retyped.literal = quoted (escapeQuotes s) :=
  literal_eq_quoted (quotedContent?_retyped h)

/-- By induction on the turns: what is quoted after each has a backslash more before each quote. -/
theorem quotedContent?_iterate_retyped {v : Value} {s : List Char} (h : v.quotedContent? = some s)
    (n : Nat) : (retyped^[n] v).quotedContent? = some (withBackslashes n s) := by
  induction n with
  | zero => rw [Function.iterate_zero_apply, h, Text.withBackslashes_zero]
  | succ n ih =>
    rw [Function.iterate_succ_apply', quotedContent?_retyped ih, Text.escapeQuotes_withBackslashes]

theorem literal_iterate_retyped {v : Value} {s : List Char} (h : v.quotedContent? = some s)
    (n : Nat) : (retyped^[n] v).literal = '\'' :: (withBackslashes (n + 1) s ++ ['\'']) := by
  rw [literal_eq_quoted (quotedContent?_iterate_retyped h n), quoted,
    Text.escapeQuotes_withBackslashes]

/-! ## Stable literals -/

theorem literal_retyped_eq_iff_of_quoted {v : Value} {s : List Char}
    (h : v.quotedContent? = some s) : v.retyped.literal = v.literal ↔ '\'' ∉ s := by
  rw [literal_retyped_of_quoted h, literal_eq_quoted h, Text.quoted_injective.eq_iff,
    Text.escapeQuotes_eq_self_iff]

theorem literal_retyped_timestamp (t : Instant) :
    (timestamp t).retyped.literal = (timestamp t).literal := by
  have hcontent : (timestamp t).quotedContent? = some (t.text ' ') := rfl
  exact (literal_retyped_eq_iff_of_quoted hcontent).2 (t.quote_not_mem_text (by decide))

/-- What becomes of a literal that is typed. Unless it is that of a floating-point number, it is
read as a value with the same literal just if no quote is in what it quotes. So numbers of either
range, truth values, null and timestamps keep their literals, and strings, arrays and objects
without quotes do. Any other literal grows by a backslash for each quote, at every turn again. -/
theorem literal_retyped_eq_iff :
    (∀ v : Value, (∀ x, v ≠ .float x) → (∀ x hx, v ≠ .json (.number (.float x hx))) →
        (v.retyped.literal = v.literal ↔ ∀ s, v.quotedContent? = some s → '\'' ∉ s)) ∧
      ((∀ i : Int64, (int i).retyped.literal = (int i).literal) ∧
        (∀ n : UInt64, (uint n).retyped.literal = (uint n).literal) ∧
        (∀ b : Bool, (boolean b).retyped.literal = (boolean b).literal) ∧
        null.retyped.literal = null.literal ∧
        (∀ t : Instant, (timestamp t).retyped.literal = (timestamp t).literal) ∧
        (∀ s : String, '\'' ∉ s.toList → (string s).retyped.literal = (string s).literal) ∧
        ∀ j : Json, j.isContainer = true → '\'' ∉ j.text .compact →
          (json j).retyped.literal = (json j).literal) ∧
      ∀ (v : Value) (s : List Char), v.quotedContent? = some s →
        v.literal = '\'' :: (withBackslashes 1 s ++ ['\'']) ∧
        v.retyped.literal.length = v.literal.length + s.count '\'' ∧
        ∀ n, (retyped^[n] v).literal = '\'' :: (withBackslashes (n + 1) s ++ ['\'']) := by
  have hbare : ∀ v : Value, v.quotedContent? = none → (∀ x, v.simplified ≠ .float x) →
      v.retyped.literal = v.literal := fun _ => literal_retyped_of_bare
  refine ⟨fun v hfloat hjson => ?_, ⟨fun i => ?_, fun n => ?_, fun b => ?_, ?_,
    literal_retyped_timestamp, fun s hs => ?_, fun j hj hs => ?_⟩, fun v s hs => ?_⟩
  · cases hcontent : v.quotedContent? with
    | none =>
      exact iff_of_true (hbare v hcontent (simplified_ne_float hfloat hjson)) nofun
    | some s =>
      rw [literal_retyped_eq_iff_of_quoted hcontent]
      simp
  · exact hbare (int i) rfl nofun
  · exact hbare (uint n) rfl nofun
  · exact hbare (boolean b) rfl nofun
  · exact hbare null rfl nofun
  · exact (literal_retyped_eq_iff_of_quoted (v := string s) rfl).2 hs
  · exact (literal_retyped_eq_iff_of_quoted (quotedContent?_json hj)).2 hs
  · have hturns := literal_iterate_retyped hs
    have hself : v.literal = '\'' :: (withBackslashes 1 s ++ ['\'']) := hturns 0
    have honce : v.retyped.literal = '\'' :: (withBackslashes 2 s ++ ['\'']) := hturns 1
    refine ⟨hself, ?_, hturns⟩
    have hlength := Text.length_withBackslashes 1 s
    have hlength' := Text.length_withBackslashes 2 s
    simp only [honce, hself, List.length_cons, List.length_append, List.length_nil]
    omega

/-- The greatest unsigned number and a string that spells it in blanks keep their literals. An
object with a quote in a member does not: its literal has two backslashes before the quote after
one turn and four after three. -/
theorem literal_retyped_eq_iff_of_quote_in_object :
    let v : Value := .json (.object [("k", .string "it's")])
    (uint 18446744073709551615).retyped.literal = "18446744073709551615".toList ∧
      (string " 7 ").retyped.literal = "' 7 '".toList ∧
      v.retyped.literal ≠ v.literal ∧
      v.retyped.literal.length = v.literal.length + 1 ∧
      (retyped^[3] v).literal = "'\x7b\"k\":\"it\\\\\\\\'s\"\x7d'".toList := by
  intro v
  have hcontent : v.quotedContent? = some "\x7b\"k\":\"it's\"\x7d".toList := by decide +kernel
  obtain ⟨hiff, ⟨-, huint, -, -, -, hstring, -⟩, hgrows⟩ := literal_retyped_eq_iff
  obtain ⟨-, hlength, hturns⟩ := hgrows v _ hcontent
  refine ⟨(huint _).trans (by decide +kernel),
    (hstring " 7 " (by decide)).trans (by decide +kernel), fun hkept => ?_,
    hlength.trans (by decide +kernel), (hturns 3).trans (by decide +kernel)⟩
  have hnone := (hiff v (by simp [v]) (by simp [v, Json.object])).1 hkept
  exact hnone _ hcontent (by decide +kernel)

end FilterTemplate.Value
