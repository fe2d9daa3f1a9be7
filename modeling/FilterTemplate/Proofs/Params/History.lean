/-
  FilterTemplate.Proofs.Params.History

  Tables against what was done to them. Whatever the steps, the table is the one
  that its record of insertions makes: each step keeps this, so every run does.
  The names of a table are therefore distinct and in the order of their first
  insertion, and each has the value of its last.
-/
import FilterTemplate.Params.History
import FilterTemplate.Proofs.Json.Printing
import FilterTemplate.Proofs.Params.Reading
import FilterTemplate.Proofs.Table

namespace FilterTemplate.Params

open Json (MemberText IsObjectText)

/-! ## Texts -/

/-- Puts the entry of a member behind others. -/
def appendEntry (before : List (String × Value)) (m : String × Json) : List (String × Value) :=
  before ++ [entryOf m]

theorem appendMember_eq (budget : Nat) :
    appendMember budget =
      Json.Reader.eachBy (Json.Reader.pair (Json.Reader.value budget)) appendEntry :=
  (Json.Reader.eachBy_pair _ appendEntry).symm

theorem ofList_appendEntry (before : List (String × Value)) (m : String × Json) :
    Table.ofList (appendEntry before m) = setMember (Table.ofList before) m := by
  rw [appendEntry, Table.ofList, Table.extend_append]
  rfl

/-- The table of a text is collected from the members of the text, and the same texts fail. -/
theorem ofText_eq_map (s : List Char) : ofText s = (membersOfText s).map Table.ofList := by
  rw [ofText, read_eq, membersOfText, appendMember_eq]
  exact Json.Reader.whole_expectMembers_map ofList_appendEntry expected [] s

theorem foldl_appendEntry (before : List (String × Value)) (ms : List (String × Json)) :
    ms.foldl appendEntry before = before ++ ms.map entryOf := by
  induction ms generalizing before with
  | nil => rw [List.foldl_nil, List.map_nil, List.append_nil]
  | cons m ms ih =>
    rw [List.foldl_cons, ih, appendEntry, List.append_assoc, List.map_cons, List.singleton_append]

/-- The members of an object's text are found in the order in which they are written. -/
theorem membersOfText_of_isObjectText {members : List MemberText} {text : List Char}
    (htext : IsObjectText members text)
    (hwithin : ∀ m ∈ members, m.IsWithin (Json.Reader.nestingLimit - 1)) :
    membersOfText text = .ok (members.map fun m => (m.name, .ofJson m.value)) := by
  rw [membersOfText, appendMember_eq, Json.Reader.whole_expectMembers_eq_ok_iff htext]
  refine ⟨hwithin, ?_⟩
  rw [foldl_appendEntry, List.nil_append, List.map_map]
  rfl

/-! ## Runs -/

/-- A step keeps the table that the record makes. -/
theorem apply_ofList (es : List (String × Value)) (step : Step) :
    Step.apply (Table.ofList es) step = Table.ofList (Step.record es step) := by
  cases step with
  | insert name value =>
    rw [Step.apply, Table.exchange_eq, Step.record, Table.ofList, Table.ofList,
      Table.extend_append]
    rfl
  | extend entries => exact (Table.extend_append Table.empty es entries).symm
  | collect entries => rfl
  | parse text =>
    rw [Step.apply, Step.record, ofText_eq_map]
    cases membersOfText text with
    | error e => rfl
    | ok ms => rfl

/-- A run makes the table that its record of insertions makes. -/
theorem run_eq_ofList (steps : List Step) : run steps = Table.ofList (insertions steps) := by
  -- The induction is on the steps, for any record of the ones before.
  have hfold : ∀ es, steps.foldl Step.apply (Table.ofList es) =
      Table.ofList (steps.foldl Step.record es) := by
    induction steps with
    | nil => exact fun es => rfl
    | cons step steps ih =>
      intro es
      rw [List.foldl_cons, apply_ofList, ih, List.foldl_cons]
  exact hfold []

theorem contains_ofList (es : List (String × Value)) (name : String) :
    (Table.ofList es).contains name = decide (name ∈ es.map Prod.fst) := by
  have hkeys : name ∈ (Table.ofList es).keys ↔ name ∈ es.map Prod.fst := by
    rw [Table.keys_ofList, List.mem_eraseDups]
  rw [Table.contains, Bool.eq_iff_iff, decide_eq_true_iff, ← hkeys, Option.isSome_iff_ne_none,
    Ne, Table.get?_eq_none_iff, Decidable.not_not]

/-- Setting a name gives back its value and leaves the other entries and their order alone. -/
theorem exchange_fst_and_entries (p : Params) (name : String) (value : Value) :
    (p.exchange name value).1 = p.get? name ∧
      (p.exchange name value).2.entries =
        if name ∈ p.keys then p.entries.map fun e => if e.1 = name then (name, value) else e
        else p.entries ++ [(name, value)] := by
  rw [Table.exchange_eq]
  refine ⟨rfl, ?_⟩
  split
  next hmem => exact Table.entries_insert_of_mem hmem value
  next hnew => exact Table.entries_insert_of_not_mem hnew value

/-- A table is an insertion-ordered map: after any steps its names are those of its record in the
order of their first insertion, each with the value of its last. Setting one name gives back
its value. A list may be collected before it is set, and the members of an object's text are
collected in their order. -/
theorem run_insertionOrdered (steps : List Step) :
    (run steps).keys.Nodup ∧
      (run steps).keys = ((insertions steps).map Prod.fst).eraseDups ∧
      (run steps).entries = ((insertions steps).map Prod.fst).eraseDups.filterMap
        (fun k => ((insertions steps).reverse.lookup k).map fun v => (k, v)) ∧
      (run steps).size = ((insertions steps).map Prod.fst).eraseDups.length ∧
      (∀ name, (run steps).get? name = (insertions steps).reverse.lookup name) ∧
      (∀ name, (run steps).contains name = decide (name ∈ (insertions steps).map Prod.fst)) ∧
      (∀ name value, ((run steps).exchange name value).1 = (run steps).get? name ∧
        ((run steps).exchange name value).2.entries =
          if name ∈ (run steps).keys then
            (run steps).entries.map fun e => if e.1 = name then (name, value) else e
          else (run steps).entries ++ [(name, value)]) ∧
      (∀ (p : Params) (es : List (String × Value)),
        p.extend es = p.extend (Table.ofList es).entries) ∧
      (∀ text, ofText text = (membersOfText text).map Table.ofList) ∧
      ∀ members text, IsObjectText members text →
        (∀ m ∈ members, m.IsWithin (Json.Reader.nestingLimit - 1)) →
        membersOfText text = .ok (members.map fun m => (m.name, .ofJson m.value)) := by
  have hkeys : (run steps).keys = ((insertions steps).map Prod.fst).eraseDups := by
    rw [run_eq_ofList, Table.keys_ofList]
  have hget : ∀ name, (run steps).get? name = (insertions steps).reverse.lookup name := by
    intro name
    rw [run_eq_ofList, Table.get?_ofList]
  have hentries := Table.entries_eq_filterMap (run steps)
  simp only [hkeys, hget] at hentries
  have hsize : (run steps).size = ((insertions steps).map Prod.fst).eraseDups.length := by
    rw [← hkeys, Table.keys, List.length_map, Table.size]
  have hcontains : ∀ name, (run steps).contains name =
      decide (name ∈ (insertions steps).map Prod.fst) := by
    intro name
    rw [run_eq_ofList, contains_ofList]
  exact ⟨Table.nodup_keys _, hkeys, hentries, hsize, hget, hcontains,
    exchange_fst_and_entries (run steps),
    fun p es => (Table.extend_entries_ofList p es).symm, ofText_eq_map,
    fun _ _ htext hwithin => membersOfText_of_isObjectText htext hwithin⟩

/-- A name that is set again, in a list and in a text. -/
theorem run_insertionOrdered_of_repeated_names :
    (run [.insert "z" .null, .collect [("b", .null)],
        .extend [("a", .null), ("b", .boolean true)]]).entries =
      [("b", .boolean true), ("a", .null)] ∧
      ∃ members, IsObjectText members "\x7b\"b\":null,\"a\":true,\"b\":false\x7d".toList ∧
        (∀ m ∈ members, m.IsWithin (Json.Reader.nestingLimit - 1)) ∧
        ofText "\x7b\"b\":null,\"a\":true,\"b\":false\x7d".toList =
          .ok ⟨[("b", .boolean false), ("a", .boolean true)], by decide⟩ := by
  have hruns := run_insertionOrdered
    [.insert "z" .null, .collect [("b", .null)], .extend [("a", .null), ("b", .boolean true)]]
  obtain ⟨-, -, hentries, -, -, -, -, -, hcollected, htexts⟩ := hruns
  let members : List MemberText :=
    [.printed "b" .null rfl, .printed "a" (.bool true) rfl, .printed "b" (.bool false) rfl]
  have htext : IsObjectText members "\x7b\"b\":null,\"a\":true,\"b\":false\x7d".toList :=
    .intro Json.Reader.isSpaces_nil Json.Reader.isSpaces_nil Json.Reader.isSpaces_nil
  have hwithin : ∀ m ∈ members, m.IsWithin (Json.Reader.nestingLimit - 1) := by
    rw [List.forall_mem_cons, List.forall_mem_cons, List.forall_mem_singleton]
    exact ⟨MemberText.isWithin_printed _ (Nat.zero_le _),
      MemberText.isWithin_printed _ (Nat.zero_le _),
      MemberText.isWithin_printed _ (Nat.zero_le _)⟩
  refine ⟨?_, members, htext, hwithin, ?_⟩
  · rw [hentries]
    rfl
  · rw [hcollected, htexts members _ htext hwithin]
    rfl

end FilterTemplate.Params
