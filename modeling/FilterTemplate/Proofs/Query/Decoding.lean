/-
  FilterTemplate.Proofs.Query.Decoding

  Tables and prepared queries that are read from JSON. A value comes in by its
  JSON form, whichever way the text is laid out, so it is normal: each member of
  a table keeps the values normal, each field of a prepared query does, and
  therefore the whole text.
-/
import FilterTemplate.Proofs.Json.Objects
import FilterTemplate.Proofs.Table
import FilterTemplate.Query.Normal

namespace FilterTemplate

open Json.Reader (Keeps bind_eq_ok_iff)

/-- The value that a JSON form stands for is normal. -/
theorem Value.isNormal_ofJson (j : Json) : (ofJson j).IsNormal := by
  cases j with
  | number n =>
    cases n with
    | int i h =>
      by_cases hi : i < 9223372036854775808
      · rw [ofJson, if_pos hi]
        trivial
      · -- Beyond the signed range the number is unsigned, and as great as that range.
        have hsize : i.toNat < UInt64.size := by
          rw [UInt64.size]
          omega
        rw [ofJson, if_neg hi]
        show 9223372036854775808 ≤ (UInt64.ofNat i.toNat).toNat
        rw [UInt64.toNat_ofNat_of_lt' hsize]
        omega
    | float x h => exact h
  | array items => rfl
  | ordered members => rfl
  | _ => trivial

/-- What is read of a whole text is read off its front. -/
theorem Json.exists_of_whole_eq_ok {α : Type} {read : Reader α} {s : List Char} {a : α}
    (h : whole read s = .ok a) : ∃ rest, read s = .ok (a, rest) := by
  obtain ⟨⟨b, rest⟩, hread, h⟩ := bind_eq_ok_iff.1 h
  dsimp only at h
  split at h
  next =>
    cases h
    exact ⟨rest, hread⟩
  next => cases h

/-! ## Tables -/

namespace Params

theorem isNormal_empty : IsNormal Table.empty :=
  fun _ he => absurd he (List.not_mem_nil)

theorem IsNormal.insert {p : Params} (h : p.IsNormal) (name : String) {v : Value}
    (hv : v.IsNormal) : IsNormal (p.insert name v) := by
  intro e he
  rcases Table.mem_entries_insert he with he | rfl
  · exact h e he
  · exact hv

theorem keeps_member (budget : Nat) : Keeps IsNormal (member budget) := by
  intro p q s rest h hp
  obtain ⟨⟨name, s₁⟩, -, h⟩ := bind_eq_ok_iff.1 h
  obtain ⟨s₂, -, h⟩ := bind_eq_ok_iff.1 h
  obtain ⟨⟨j, s₃⟩, -, h⟩ := bind_eq_ok_iff.1 h
  cases h
  exact hp.insert name (Value.isNormal_ofJson j)

theorem isNormal_of_read {budget : Nat} {s rest : List Char} {p : Params}
    (h : read budget s = .ok (p, rest)) : p.IsNormal :=
  Json.Reader.expectMembers_keeps (keeps_member budget) expected h isNormal_empty

/-- All values of a table that is read are normal. -/
theorem isNormal_of_ofText {s : List Char} {p : Params} (h : ofText s = .ok p) : p.IsNormal := by
  obtain ⟨rest, hread⟩ := Json.exists_of_whole_eq_ok h
  exact isNormal_of_read hread

end Params

/-! ## Prepared queries -/

namespace Prepared

/-- The values are normal, if their field is read already. -/
def Fields.IsNormal (fields : Fields) : Prop :=
  ∀ p, fields.values = some p → p.IsNormal

theorem keeps_member : Keeps Fields.IsNormal member := by
  intro fields fields' s rest h hfields
  obtain ⟨⟨name, s₁⟩, -, h⟩ := bind_eq_ok_iff.1 h
  dsimp only at h
  by_cases htemplate : name = "raw"
  · rw [if_pos htemplate] at h
    split at h
    next => cases h
    next =>
      obtain ⟨s₂, -, h⟩ := bind_eq_ok_iff.1 h
      obtain ⟨⟨template, s₃⟩, -, h⟩ := bind_eq_ok_iff.1 h
      cases h
      exact hfields
  · rw [if_neg htemplate] at h
    by_cases hvalues : name = "values"
    · -- The only field that brings values in.
      rw [if_pos hvalues] at h
      split at h
      next => cases h
      next =>
        obtain ⟨s₂, -, h⟩ := bind_eq_ok_iff.1 h
        obtain ⟨⟨values, s₃⟩, hread, h⟩ := bind_eq_ok_iff.1 h
        cases h
        intro p hp
        rw [← Option.some.inj hp]
        exact Params.isNormal_of_read hread
    · rw [if_neg hvalues] at h
      obtain ⟨s₂, -, h⟩ := bind_eq_ok_iff.1 h
      obtain ⟨s₃, -, h⟩ := bind_eq_ok_iff.1 h
      cases h
      exact hfields

theorem isNormal_of_ofFields {fields : Fields} {p : Prepared} (h : ofFields fields = .ok p)
    (hfields : fields.IsNormal) : p.values.IsNormal := by
  rw [ofFields] at h
  split at h
  next => cases h
  next => cases h
  next template values _ hvalues =>
    cases h
    exact hfields values hvalues

theorem isNormal_of_readItems {s rest : List Char} {p : Prepared}
    (h : readItems s = .ok (p, rest)) : p.values.IsNormal := by
  obtain ⟨s₁, -, h⟩ := bind_eq_ok_iff.1 h
  obtain ⟨⟨template, s₂⟩, -, h⟩ := bind_eq_ok_iff.1 h
  obtain ⟨s₃, -, h⟩ := bind_eq_ok_iff.1 h
  obtain ⟨⟨values, s₄⟩, hread, h⟩ := bind_eq_ok_iff.1 h
  dsimp only at h
  split at h
  next => cases h
  next =>
    split at h
    next =>
      cases h
      exact Params.isNormal_of_read hread
    next => cases h

theorem isNormal_of_read {s rest : List Char} {p : Prepared} (h : read s = .ok (p, rest)) :
    p.values.IsNormal := by
  rw [read] at h
  split at h
  next => exact isNormal_of_readItems h
  next =>
    obtain ⟨⟨fields, s₁⟩, hread, h⟩ := bind_eq_ok_iff.1 h
    obtain ⟨q, hq, h⟩ := bind_eq_ok_iff.1 h
    cases h
    have hnone : Fields.IsNormal ⟨none, none⟩ := fun _ hp => by cases hp
    exact isNormal_of_ofFields hq
      (Json.Reader.expectMembers_keeps keeps_member expected hread hnone)

/-- All values of a prepared query that is read are normal, whether its fields are given as an
object or as an array. -/
theorem isNormal_of_ofText {s : List Char} {p : Prepared} (h : ofText s = .ok p) :
    p.values.IsNormal := by
  obtain ⟨rest, hread⟩ := Json.exists_of_whole_eq_ok h
  exact isNormal_of_read hread

end Prepared

end FilterTemplate
