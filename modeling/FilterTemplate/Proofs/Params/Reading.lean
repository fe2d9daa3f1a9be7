/-
  FilterTemplate.Proofs.Params.Reading

  Tables read from JSON. Reading a table sets the members of an object in the
  order of the text, so a repeated name counts as it counts where a list of
  names is set.
-/
import FilterTemplate.Params.Basic
import FilterTemplate.Proofs.Json.Objects

namespace FilterTemplate.Params

open Json (MemberText IsObjectText)

/-- The entry that a member of an object sets. -/
def entryOf (m : String × Json) : String × Value :=
  (m.1, .ofJson m.2)

/-- Sets the entry of a member. -/
def setMember (p : Params) (m : String × Json) : Params :=
  p.insert m.1 (.ofJson m.2)

theorem foldl_setMember (p : Params) (ms : List (String × Json)) :
    ms.foldl setMember p = p.extend (ms.map entryOf) := by
  induction ms generalizing p with
  | nil => rfl
  | cons m ms ih =>
    rw [List.foldl_cons, ih, List.map_cons, Table.extend_cons]
    rfl

theorem member_eq (budget : Nat) :
    member budget = Json.Reader.eachBy (Json.Reader.pair (Json.Reader.value budget)) setMember :=
  (Json.Reader.eachBy_pair _ setMember).symm

theorem read_eq (budget : Nat) :
    read budget = Json.Reader.expectMembers expected
      (Json.Reader.eachBy (Json.Reader.pair (Json.Reader.value budget)) setMember) Table.empty := by
  rw [read, member_eq]

theorem skipsSpace_read (budget : Nat) : Json.Reader.SkipsSpace (read budget) :=
  Json.Reader.skipsSpace_expectMembers expected _ Table.empty

/-- A table is read from the text of an object. -/
theorem agrees_read (budget : Nat) :
    Json.Reader.Agrees (read budget) (fun t p => ∃ ms,
      Json.SpellsObject (Json.Spells budget) t ms ∧ p = Table.ofList (ms.map entryOf)) := by
  have hagrees := Json.Reader.agrees_expectMembers expected setMember Table.empty budget
  simp only [foldl_setMember] at hagrees
  rw [read_eq]
  exact hagrees

/-- The text of an object is read if its members leave one level of nesting, and
then their entries are set in their order. -/
theorem ofText_eq_ok_iff {members : List MemberText} {text : List Char}
    (htext : IsObjectText members text) {p : Params} :
    ofText text = .ok p ↔ (∀ m ∈ members, m.IsWithin (Json.Reader.nestingLimit - 1)) ∧
      p = Table.ofList (members.map fun m => (m.name, .ofJson m.value)) := by
  rw [ofText, read_eq, Json.Reader.whole_expectMembers_eq_ok_iff htext, foldl_setMember,
    List.map_map]
  rfl

end FilterTemplate.Params
