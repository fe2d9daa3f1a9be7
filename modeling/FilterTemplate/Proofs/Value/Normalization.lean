/-
  FilterTemplate.Proofs.Value.Normalization

  What a turn through JSON does to a value. A normal value stays, and the value
  that a turn leaves has the same JSON form as before. The literal stays too,
  outside the values that JSON has no form of: a NaN and the infinities become
  null, and a timestamp becomes a string, whose literal has a `T` where the
  timestamp's has a space.
-/
import FilterTemplate.Proofs.Text.Quoting
import FilterTemplate.Query.Normal

namespace FilterTemplate

namespace Value

/-! ## JSON forms -/

/-- A JSON form stands for a value of which it is the form. -/
theorem toJson_ofJson (j : Json) : (ofJson j).toJson = j := by
  cases j with
  | number n =>
    cases n with
    | int i h =>
      by_cases hi : i < 9223372036854775808
      · have hint : (Int64.ofInt i).toInt = i := Int64.toInt_ofInt_of_le h.1 hi
        simp only [ofJson, if_pos hi, toJson, hint]
      · have hsize : i.toNat < UInt64.size := by
          rw [UInt64.size]
          omega
        have hnat : (UInt64.ofNat i.toNat).toNat = i.toNat := UInt64.toNat_ofNat_of_lt' hsize
        have hint : (i.toNat : Int) = i := Int.toNat_of_nonneg (by omega)
        simp only [ofJson, if_neg hi, toJson, hnat, hint]
    | float x h => simp only [ofJson, toJson, dif_pos h]
  | _ => rfl

theorem toJson_normalized (v : Value) : v.normalized.toJson = v.toJson :=
  toJson_ofJson v.toJson

theorem normalized_of_isNormal {v : Value} (h : v.IsNormal) : v.normalized = v := by
  cases v with
  | int i =>
    have hlt : i.toInt < 9223372036854775808 := i.toInt_lt
    rw [normalized, toJson, ofJson, if_pos hlt, Int64.ofInt_toInt]
  | uint n =>
    have hle : ¬ (n.toNat : Int) < 9223372036854775808 := by
      have hn : 9223372036854775808 ≤ n.toNat := h
      omega
    rw [normalized, toJson, ofJson, if_neg hle, Int.toNat_natCast, UInt64.ofNat_toNat]
  | float x =>
    have hx : x.isFinite = true := h
    rw [normalized, toJson, dif_pos hx, ofJson]
  | json j =>
    cases j with
    | array items => rfl
    | ordered members => rfl
    | _ => exact absurd h (by simp [IsNormal, Json.isContainer])
  | timestamp t => exact absurd h (by simp [IsNormal])
  | _ => rfl

/-! ## Literals -/

theorem simplified_ofJson (j : Json) : (ofJson j).simplified = ofJson j := by
  cases j with
  | number n =>
    cases n with
    | int i h =>
      rw [ofJson]
      split <;> rfl
    | float x h => rfl
  | _ => rfl

theorem literal_ofJson (j : Json) : (ofJson j).literal = (json j).literal :=
  congrArg literalText (simplified_ofJson j)

theorem literal_normalized_uint (n : UInt64) : (uint n).normalized.literal = (uint n).literal := by
  by_cases hn : 9223372036854775808 ≤ n.toNat
  · rw [normalized_of_isNormal (v := uint n) hn]
  · have hlt : (n.toNat : Int) < 9223372036854775808 := by omega
    have hint : (Int64.ofInt n.toNat).toInt = n.toNat :=
      Int64.toInt_ofInt_of_le (by omega) hlt
    have hpos : ¬ (n.toNat : Int) < 0 := by omega
    have hsigned : (uint n).normalized = int (Int64.ofInt n.toNat) := by
      rw [normalized, toJson, ofJson, if_pos hlt]
    have hliteral : (int (Int64.ofInt n.toNat)).literal =
        integerText (Int64.ofInt n.toNat).toInt := rfl
    rw [hsigned, hliteral, hint, integerText, if_neg hpos, Int.natAbs_natCast]
    rfl

theorem literal_normalized_of_fitsJson {v : Value} (h : v.FitsJson) :
    v.normalized.literal = v.literal := by
  cases v with
  | uint n => exact literal_normalized_uint n
  | timestamp t => exact absurd h (by simp [FitsJson])
  | json j => exact literal_ofJson j
  | int i => rw [normalized_of_isNormal (v := int i) trivial]
  | float x => rw [normalized_of_isNormal (v := float x) h]
  | string s => rfl
  | boolean b => rfl
  | null => rfl

/-- A number that JSON lacks becomes null, which no literal of a number is. -/
theorem literal_normalized_float_ne {x : Binary64} (h : ¬ x.isFinite = true) :
    (float x).normalized.literal ≠ (float x).literal := by
  have hnull : (float x).normalized = null := by
    rw [normalized, toJson, dif_neg h, ofJson]
  have hliteral : (float x).literal = x.literal := rfl
  rw [hnull, hliteral, Binary64.literal]
  by_cases hnan : x.isNaN = true
  · rw [if_pos hnan]
    decide
  · have hinfinite : x.isInfinite = true := by
      rw [Binary64.isFinite_eq] at h
      simpa [hnan] using h
    rw [if_neg hnan, if_pos hinfinite]
    cases x.isNegative <;> decide

end Value

/-! ## Timestamps -/

/-- A character that is no quote keeps its place in a quoted text. -/
theorem Text.quoted_append_cons (s t : List Char) {c : Char} (hc : c ≠ '\'') :
    quoted (s ++ c :: t) = '\'' :: escapeQuotes s ++ c :: (escapeQuotes t ++ ['\'']) := by
  rw [quoted, escapeQuotes_append, escapeQuotes, if_neg hc]
  simp

/-- Only the separator of an instant's text depends on the separator. -/
theorem Instant.exists_text_eq (t : Instant) :
    ∃ date time : List Char, ∀ separator, t.text separator = date ++ separator :: time := by
  refine ⟨yearText (civil t.day).1 ++ '-' :: zeroPadded 2 (civil t.day).2.1 ++
    '-' :: zeroPadded 2 (civil t.day).2.2, zeroPadded 2 t.clock.1 ++
    ':' :: zeroPadded 2 t.clock.2.1 ++ ':' :: zeroPadded 2 t.clock.2.2 ++
    '.' :: zeroPadded 3 t.millis ++ ['Z'], ?_⟩
  intro separator
  simp only [text, List.append_assoc, List.cons_append]

namespace Value

/-- A timestamp's literal has a space where that of its JSON form has a `T`. -/
theorem exists_literal_timestamp_eq (t : Instant) :
    ∃ before after : List Char, (timestamp t).literal = before ++ ' ' :: after ∧
      (timestamp t).normalized.literal = before ++ 'T' :: after := by
  obtain ⟨date, time, htext⟩ := t.exists_text_eq
  have hliteral : (timestamp t).literal = Text.quoted (t.text ' ') := rfl
  have hstring : (timestamp t).normalized.literal = Text.quoted (t.text 'T') :=
    congrArg Text.quoted String.toList_ofList
  refine ⟨'\'' :: Text.escapeQuotes date, Text.escapeQuotes time ++ ['\''], ?_, ?_⟩
  · rw [hliteral, htext, Text.quoted_append_cons _ _ (by decide)]
  · rw [hstring, htext, Text.quoted_append_cons _ _ (by decide)]

theorem literal_normalized_timestamp_ne (t : Instant) :
    (timestamp t).normalized.literal ≠ (timestamp t).literal := by
  obtain ⟨before, after, hliteral, hnormalized⟩ := exists_literal_timestamp_eq t
  rw [hliteral, hnormalized]
  simp

theorem literal_normalized_eq_iff (v : Value) :
    v.normalized.literal = v.literal ↔ v.FitsJson := by
  refine ⟨fun h => ?_, literal_normalized_of_fitsJson⟩
  cases v with
  | timestamp t => exact literal_normalized_timestamp_ne t h
  | float x => exact Decidable.byContradiction fun hx => literal_normalized_float_ne hx h
  | _ => trivial

end Value

/-! ## Filters -/

/-- Only names and literals of the entries matter to a substitution. -/
theorem substituteEntries_map {f : Value → Value} {entries : List (String × Value)}
    (h : ∀ e ∈ entries, (f e.2).literal = e.2.literal) (s : List Char) :
    substituteEntries (entries.map fun (name, v) => (name, f v)) s =
      substituteEntries entries s := by
  induction entries generalizing s with
  | nil => rfl
  | cons e rest ih =>
    rw [List.forall_mem_cons] at h
    rw [List.map_cons, substituteEntries, substituteEntries, h.1, ih h.2]

/-- Writing values as JSON and reading them back changes the literals of
timestamps, by one character, and of the numbers that JSON lacks, and no
others. Filters whose values are none of these stay as they are. -/
theorem literal_and_substitute_normalized :
    (∀ v : Value, v.normalized.literal = v.literal ↔ v.FitsJson) ∧
      (∀ t : Instant, ∃ before after : List Char,
        (Value.timestamp t).literal = before ++ ' ' :: after ∧
          (Value.timestamp t).normalized.literal = before ++ 'T' :: after) ∧
      ∀ (template : String) (params : Params), (∀ e ∈ params.entries, e.2.FitsJson) →
        substitute template (some params.normalized) = substitute template (some params) := by
  refine ⟨Value.literal_normalized_eq_iff, Value.exists_literal_timestamp_eq, ?_⟩
  intro template params hparams
  have hliterals : ∀ e ∈ params.entries, e.2.normalized.literal = e.2.literal :=
    fun e he => Value.literal_normalized_of_fitsJson (hparams e he)
  rw [substitute, substitute, Params.normalized, Table.map, substituteEntries_map hliterals]

/-- An unsigned number turns signed and a raw JSON scalar a value of its own
kind, and the filter does not show it. -/
theorem literal_and_substitute_normalized_of_mixed_kinds :
    let params : Params :=
      ⟨[("a", .uint 7), ("b", .json (.string "\x7b:c\x7d")), ("c", .float ⟨0x8000000000000000⟩)],
        by decide⟩
    (∀ e ∈ params.entries, e.2.FitsJson) ∧
      substitute "x=\x7b:a\x7d && y=\x7b:b\x7d" (some params.normalized) =
        substitute "x=\x7b:a\x7d && y=\x7b:b\x7d" (some params) ∧
      substitute "x=\x7b:a\x7d && y=\x7b:b\x7d" (some params) = "x=7 && y='0'" := by
  intro params
  have hparams : ∀ e ∈ params.entries, e.2.FitsJson := by decide +kernel
  exact ⟨hparams, literal_and_substitute_normalized.2.2 _ params hparams, by decide +kernel⟩

end FilterTemplate
