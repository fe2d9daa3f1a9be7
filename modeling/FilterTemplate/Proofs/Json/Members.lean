/-
  FilterTemplate.Proofs.Json.Members

  Members by key. The keys of an object ascend, so its members, set one after
  the other, go behind each other as they stand: the object that the members of
  an object make is that object.
-/
import FilterTemplate.Json.Basic

namespace FilterTemplate.Json

namespace Members

theorem lt_of_mem_entries {above : Option String} (ms : Members above) {k : String}
    (hk : k ∈ above) {m : String × Json} (hm : m ∈ ms.entries) : k < m.1 := by
  match ms with
  | .nil => exact absurd hm List.not_mem_nil
  | .cons key value above_lt rest =>
    have hkey : k < key := above_lt k hk
    rcases List.mem_cons.1 hm with rfl | hm
    · exact hkey
    · exact String.lt_trans hkey (rest.lt_of_mem_entries rfl hm)

theorem pairwise_entries {above : Option String} (ms : Members above) :
    (ms.entries.map Prod.fst).Pairwise (· < ·) := by
  match ms with
  | .nil => exact .nil
  | .cons key value _ rest =>
    refine .cons ?_ rest.pairwise_entries
    intro k hk
    obtain ⟨m, hm, rfl⟩ := List.mem_map.1 hk
    exact rest.lt_of_mem_entries rfl hm

theorem entries_injective {above : Option String} {ms ms' : Members above}
    (h : ms.entries = ms'.entries) : ms = ms' := by
  match ms, ms' with
  | .nil, .nil => rfl
  | .cons key value _ rest, .cons key' value' _ rest' =>
    obtain ⟨hhead, htail⟩ := List.cons.inj h
    -- With equal keys the rests are of one type.
    obtain ⟨rfl, rfl⟩ := Prod.mk.inj hhead
    rw [entries_injective htail]

/-- A key above all others goes to the end. -/
theorem entries_setAbove_of_lt {above : Option String} (ms : Members above) {key : String}
    (value : Json) (habove : ∀ k ∈ above, k < key) (h : ∀ m ∈ ms.entries, m.1 < key) :
    (ms.setAbove key value habove).entries = ms.entries ++ [(key, value)] := by
  match ms with
  | .nil => rfl
  | .cons k v _ rest =>
    obtain ⟨hk, hrest⟩ := List.forall_mem_cons.1 h
    have hlt : ¬ key < k := fun hlt => String.lt_irrefl _ (String.lt_trans hlt hk)
    have hne : key ≠ k := fun heq => String.lt_irrefl _ (heq ▸ hk)
    rw [setAbove, dif_neg hlt, dif_neg hne, entries, entries_setAbove_of_lt rest value _ hrest,
      entries, List.cons_append]

/-- By induction on the list: members with ascending keys go behind those that are there. -/
theorem entries_foldl_set {es : List (String × Json)} {ms : Members none}
    (h : ((ms.entries ++ es).map Prod.fst).Pairwise (· < ·)) :
    (es.foldl (fun before m => before.set m.1 m.2) ms).entries = ms.entries ++ es := by
  induction es generalizing ms with
  | nil => exact (List.append_nil _).symm
  | cons e es ih =>
    -- The keys ascend, so the next one is above all that are there.
    have hlt : ∀ m ∈ ms.entries, m.1 < e.1 := by
      intro m hm
      rw [List.map_append, List.pairwise_append] at h
      exact h.2.2 m.1 (List.mem_map_of_mem hm) e.1 List.mem_cons_self
    have hset : (ms.set e.1 e.2).entries = ms.entries ++ [e] :=
      ms.entries_setAbove_of_lt e.2 _ hlt
    rw [List.append_cons, ← hset] at h
    rw [List.foldl_cons, ih h, hset, ← List.append_cons]

theorem ofList_entries (ms : Members none) : ofList ms.entries = ms :=
  have hascending : (((nil : Members none).entries ++ ms.entries).map Prod.fst).Pairwise (· < ·) :=
    ms.pairwise_entries
  entries_injective (entries_foldl_set hascending)

end Members

/-- An object is the one that its members make. -/
theorem object_entries (ms : Members none) : object ms.entries = .ordered ms :=
  congrArg ordered ms.ofList_entries

end FilterTemplate.Json
