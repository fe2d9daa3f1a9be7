/-
  FilterTemplate.Proofs.Table

  What tables hold after names are set. An entry is found by its name, so a
  look-up does not depend on the order of the entries, and setting new names
  only adds entries. Setting a list of names puts those that are new behind the
  others in the order of their first setting, and each keeps the value of its
  last. Collecting a list first changes nothing.
-/
import FilterTemplate.Table
import Mathlib.Data.List.Basic

namespace FilterTemplate.Table

variable {α : Type}

/-! ## Names -/

@[simp] theorem keys_empty : (empty : Table α).keys = [] := rfl

theorem get?_eq_none_iff {t : Table α} {name : String} : t.get? name = none ↔ name ∉ t.keys := by
  simp only [get?, keys, List.lookup_eq_none_iff, List.mem_map, not_exists, not_and,
    bne_iff_ne]
  exact ⟨fun h e he heq => h e he heq.symm, fun h e he heq => h e he heq.symm⟩

/-! ## Entries -/

/-- An entry after setting a name was there before or is the one set. -/
theorem mem_entries_insert {t : Table α} {name : String} {value : α} {e : String × α}
    (h : e ∈ (t.insert name value).entries) : e ∈ t.entries ∨ e = (name, value) := by
  simp only [insert] at h
  generalize t.entries = entries at h ⊢
  induction entries with
  | nil => exact .inr (List.mem_singleton.1 h)
  | cons d rest ih =>
    obtain ⟨k, v⟩ := d
    by_cases hk : k = name
    · rw [setEntry, if_pos hk, List.mem_cons] at h
      rcases h with rfl | h
      · exact .inr (by rw [hk])
      · exact .inl (List.mem_cons_of_mem _ h)
    · rw [setEntry, if_neg hk, List.mem_cons] at h
      rcases h with rfl | h
      · exact .inl List.mem_cons_self
      · exact (ih h).imp (List.mem_cons_of_mem _) id

theorem mem_entries_extend {t : Table α} {es : List (String × α)} {e : String × α}
    (h : e ∈ (t.extend es).entries) : e ∈ t.entries ∨ e ∈ es := by
  induction es generalizing t with
  | nil => exact .inl h
  | cons d es ih =>
    rw [extend_cons] at h
    rcases ih h with h | h
    · rcases mem_entries_insert h with h | rfl
      · exact .inl h
      · exact .inr List.mem_cons_self
    · exact .inr (List.mem_cons_of_mem d h)

theorem mem_keys_extend {t : Table α} {es : List (String × α)} {name : String} :
    name ∈ (t.extend es).keys ↔ name ∈ t.keys ∨ name ∈ es.map Prod.fst := by
  induction es generalizing t with
  | nil => simp
  | cons d es ih =>
    rw [extend_cons, ih, keys_insert, List.map_cons, List.mem_cons]
    split
    · next hd =>
      constructor
      · exact Or.imp_right .inr
      · rintro (h | rfl | h)
        · exact .inl h
        · exact .inl hd
        · exact .inr h
    · rw [List.mem_append, List.mem_singleton, or_assoc]

/-! ## Setting a list of names -/

theorem prefix_keys_insert (t : Table α) (name : String) (value : α) :
    t.keys <+: (t.insert name value).keys := by
  rw [keys_insert]
  split
  · exact List.prefix_rfl
  · exact List.prefix_append _ _

theorem prefix_keys_extend (t : Table α) (es : List (String × α)) :
    t.keys <+: (t.extend es).keys := by
  induction es generalizing t with
  | nil => exact List.prefix_rfl
  | cons e es ih => exact (prefix_keys_insert t e.1 e.2).trans (ih (t.insert e.1 e.2))

/-- The names set are behind those that are there, in the order of their first setting. -/
theorem keys_extend (t : Table α) (es : List (String × α)) :
    (t.extend es).keys = t.keys ++ ((es.map Prod.fst).removeAll t.keys).eraseDups := by
  induction es generalizing t with
  | nil => rw [extend_nil, List.map_nil, List.removeAll, List.filter_nil, List.eraseDups_nil,
      List.append_nil]
  | cons e es ih =>
    rw [extend_cons, ih, keys_insert, List.map_cons, List.cons_removeAll]
    by_cases he : e.1 ∈ t.keys
    · rw [if_pos he, if_neg (by simpa using he)]
    · have hrest : (es.map Prod.fst).removeAll (t.keys ++ [e.1]) =
          ((es.map Prod.fst).removeAll t.keys).filter fun k => !k == e.1 := by
        rw [List.removeAll, List.removeAll, List.filter_filter]
        refine List.filter_congr fun k _ => ?_
        by_cases hk : k = e.1
        · simp [hk]
        · simp [hk]
      rw [if_neg he, if_pos (by simpa using he), hrest, List.eraseDups_cons, List.append_assoc,
        List.singleton_append]

theorem keys_ofList (es : List (String × α)) :
    (ofList es).keys = (es.map Prod.fst).eraseDups := by
  have hall : (es.map Prod.fst).removeAll [] = es.map Prod.fst :=
    List.filter_eq_self.2 fun _ _ => rfl
  rw [ofList, keys_extend, keys_empty, hall, List.nil_append]

theorem get?_extend_of_not_mem {t : Table α} {es : List (String × α)} {name : String}
    (h : name ∉ es.map Prod.fst) : (t.extend es).get? name = t.get? name := by
  induction es generalizing t with
  | nil => rfl
  | cons e es ih =>
    rw [List.map_cons, List.mem_cons, not_or] at h
    rw [extend_cons, ih h.2, get?_insert, if_neg h.1]

/-- A name keeps the value that it was set to last. -/
theorem get?_extend_append_cons {t : Table α} {es fs : List (String × α)} {name : String}
    {value : α} (h : name ∉ fs.map Prod.fst) :
    (t.extend (es ++ (name, value) :: fs)).get? name = some value := by
  rw [extend_append, extend_cons, get?_extend_of_not_mem h, get?_insert, if_pos rfl]

/-! ## Entries by their names -/

/-- Each entry is found by its name. -/
theorem get?_eq_some_iff_mem {t : Table α} {name : String} {value : α} :
    t.get? name = some value ↔ (name, value) ∈ t.entries := by
  obtain ⟨entries, h⟩ := t
  simp only [get?]
  induction entries with
  | nil => simp
  | cons e rest ih =>
    obtain ⟨k, v⟩ := e
    rw [List.map_cons, List.nodup_cons] at h
    by_cases hk : name = k
    · -- The name is found at its first entry, which is its only one.
      subst hk
      have hout : (name, value) ∉ rest := fun hm => h.1 (List.mem_map.2 ⟨_, hm, rfl⟩)
      simp [hout, eq_comm]
    · rw [List.lookup_cons, beq_eq_false_iff_ne.2 hk]
      simp [ih h.2, hk]

/-- A look-up does not depend on the order of the entries. -/
theorem get?_eq_of_perm {t u : Table α} (hp : u.entries.Perm t.entries) (name : String) :
    u.get? name = t.get? name := by
  apply Option.ext
  intro value
  rw [get?_eq_some_iff_mem, get?_eq_some_iff_mem, hp.mem_iff]

theorem setEntry_of_not_mem {name : String} {entries : List (String × α)}
    (h : name ∉ entries.map Prod.fst) (value : α) :
    setEntry name value entries = entries ++ [(name, value)] := by
  induction entries with
  | nil => rfl
  | cons e rest ih =>
    obtain ⟨k, v⟩ := e
    rw [List.map_cons, List.mem_cons, not_or] at h
    rw [setEntry, if_neg (Ne.symm h.1), ih h.2, List.cons_append]

theorem entries_insert_of_not_mem {t : Table α} {name : String} (h : name ∉ t.keys) (value : α) :
    (t.insert name value).entries = t.entries ++ [(name, value)] :=
  setEntry_of_not_mem h value

/-- New and distinct names go behind all entries in their order. -/
theorem entries_extend_of_nodup {t : Table α} {es : List (String × α)}
    (h : (t.keys ++ es.map Prod.fst).Nodup) : (t.extend es).entries = t.entries ++ es := by
  induction es generalizing t with
  | nil => simp
  | cons e es ih =>
    have hnew : e.1 ∉ t.keys := by
      rw [List.nodup_append] at h
      exact fun hm => h.2.2 e.1 hm e.1 (by simp) rfl
    have hkeys : (t.insert e.1 e.2).keys = t.keys ++ [e.1] := by rw [keys_insert, if_neg hnew]
    rw [extend_cons, ih (by simpa [hkeys] using h), entries_insert_of_not_mem hnew,
      List.append_assoc, List.singleton_append]

theorem entries_ofList_of_nodup {es : List (String × α)} (h : (es.map Prod.fst).Nodup) :
    (ofList es).entries = es :=
  entries_extend_of_nodup (t := empty) h

/-- A table is the one that its entries make. -/
theorem ofList_entries (t : Table α) : ofList t.entries = t :=
  Table.ext (entries_ofList_of_nodup t.nodup)

/-- The entries are the names in order with what they are set to. -/
theorem entries_eq_filterMap (t : Table α) :
    t.entries = t.keys.filterMap fun k => (t.get? k).map fun v => (k, v) := by
  have hself : ∀ e ∈ t.entries, ((t.get? e.1).map fun v => (e.1, v)) = some e := by
    intro e he
    rw [get?_eq_some_iff_mem.2 he, Option.map_some]
  rw [keys, List.filterMap_map]
  exact (List.filterMap_some.symm).trans (List.filterMap_congr fun e he => (hself e he).symm)

/-- A name that is there keeps its place, and no other entry changes. -/
theorem entries_insert_of_mem {t : Table α} {name : String} (hname : name ∈ t.keys) (value : α) :
    (t.insert name value).entries =
      t.entries.map fun e => if e.1 = name then (name, value) else e := by
  obtain ⟨entries, h⟩ := t
  simp only [keys, insert] at hname ⊢
  induction entries with
  | nil => exact absurd hname (by simp)
  | cons e rest ih =>
    obtain ⟨k, v⟩ := e
    rw [List.map_cons, List.nodup_cons] at h
    rw [List.map_cons, List.mem_cons] at hname
    by_cases hk : k = name
    · -- The others have other names.
      have hother : ∀ e ∈ rest, (if e.1 = name then (name, value) else e) = e := by
        intro e he
        exact if_neg fun heq => h.1 (List.mem_map.2 ⟨e, he, heq.trans hk.symm⟩)
      have hrest : (rest.map fun e => if e.1 = name then (name, value) else e) = rest :=
        (List.map_congr_left hother).trans (List.map_id' rest)
      rw [setEntry, if_pos hk, List.map_cons, if_pos hk, hrest, hk]
    · rw [setEntry, if_neg hk, List.map_cons, if_neg hk,
        ih h.2 (hname.resolve_left (Ne.symm hk))]

/-! ## Last settings -/

/-- A name is set to what the list sets it to last, or to what it was before. -/
theorem get?_extend (t : Table α) (es : List (String × α)) (name : String) :
    (t.extend es).get? name = (es.reverse.lookup name).or (t.get? name) := by
  induction es generalizing t with
  | nil => rfl
  | cons e es ih =>
    rw [extend_cons, ih, get?_insert, List.reverse_cons, List.lookup_append, Option.or_assoc]
    by_cases hname : name = e.1
    · rw [if_pos hname, List.lookup_cons, beq_iff_eq.2 hname]
      rfl
    · rw [if_neg hname, List.lookup_cons, beq_eq_false_iff_ne.2 hname]
      rfl

theorem get?_ofList (es : List (String × α)) (name : String) :
    (ofList es).get? name = es.reverse.lookup name := by
  rw [ofList, get?_extend]
  exact Option.or_none

/-! ## Giving back the old value -/

theorem exchange_eq (t : Table α) (name : String) (value : α) :
    t.exchange name value = (t.get? name, t.insert name value) := by
  have hentries := exchangeEntry_eq name value t.entries
  rw [exchange]
  split
  next before entries h =>
    obtain ⟨rfl, rfl⟩ := Prod.mk.inj (h.symm.trans hentries)
    rfl

/-! ## Collecting first -/

theorem setEntry_comm_of_mem {name other : String} {entries : List (String × α)}
    (h : name ∈ entries.map Prod.fst) (hne : other ≠ name) (value v : α) :
    setEntry name value (setEntry other v entries) =
      setEntry other v (setEntry name value entries) := by
  induction entries with
  | nil => exact absurd h (by simp)
  | cons e rest ih =>
    obtain ⟨k, u⟩ := e
    rw [List.map_cons, List.mem_cons] at h
    by_cases hk : k = name
    · have hother : k ≠ other := fun heq => hne (heq.symm.trans hk)
      simp [setEntry, hk, hk ▸ hother]
    · have hrest := ih (h.resolve_left (Ne.symm hk))
      by_cases hother : k = other
      · simp [setEntry, hother, hne]
      · simp [setEntry, hother, hk, hrest]

/-- A name that is there may be set before or after another one. -/
theorem insert_comm_of_mem {t : Table α} {name other : String} (h : name ∈ t.keys)
    (hne : other ≠ name) (value v : α) :
    (t.insert other v).insert name value = (t.insert name value).insert other v :=
  Table.ext (setEntry_comm_of_mem h hne value v)

theorem extend_insert_of_mem {t : Table α} {name : String} (h : name ∈ t.keys)
    {es : List (String × α)} (hes : name ∉ es.map Prod.fst) (value : α) :
    (t.extend es).insert name value = (t.insert name value).extend es := by
  induction es generalizing t with
  | nil => rfl
  | cons e es ih =>
    rw [List.map_cons, List.mem_cons, not_or] at hes
    have hmem : name ∈ (t.insert e.1 e.2).keys := (prefix_keys_insert t e.1 e.2).subset h
    rw [extend_cons, ih hmem hes.2, insert_comm_of_mem h (Ne.symm hes.1), extend_cons]

theorem setEntry_setEntry (name : String) (value v : α) (entries : List (String × α)) :
    setEntry name value (setEntry name v entries) = setEntry name value entries := by
  induction entries with
  | nil => simp [setEntry]
  | cons e rest ih =>
    obtain ⟨k, u⟩ := e
    by_cases hk : k = name
    · simp [setEntry, hk]
    · simp [setEntry, hk, ih]

theorem insert_insert (t : Table α) (name : String) (value v : α) :
    (t.insert name v).insert name value = t.insert name value :=
  Table.ext (setEntry_setEntry name value v t.entries)

/-- Setting a list in which a name was set is setting the list and then the name. -/
theorem extend_setEntry (t : Table α) {es : List (String × α)} (h : (es.map Prod.fst).Nodup)
    (name : String) (value : α) :
    t.extend (setEntry name value es) = (t.extend es).insert name value := by
  induction es generalizing t with
  | nil => rfl
  | cons e es ih =>
    obtain ⟨k, v⟩ := e
    rw [List.map_cons, List.nodup_cons] at h
    by_cases hk : k = name
    · -- The name is there from the first entry on, so its last value can be set at once.
      have hmem : name ∈ (t.insert k v).keys := by
        rw [keys_insert, hk]
        split
        next hin => exact hin
        next => exact List.mem_append_right _ List.mem_cons_self
      rw [setEntry, if_pos hk, extend_cons, extend_cons, extend_insert_of_mem hmem (hk ▸ h.1), hk,
        insert_insert]
    · rw [setEntry, if_neg hk, extend_cons, extend_cons, ih _ h.2]

theorem extend_entries_extend (t u : Table α) (es : List (String × α)) :
    t.extend (u.extend es).entries = (t.extend u.entries).extend es := by
  induction es generalizing u with
  | nil => rfl
  | cons e es ih => rw [extend_cons, ih, insert, extend_setEntry t u.nodup, extend_cons]

/-- A list may be collected before its names are set. -/
theorem extend_entries_ofList (t : Table α) (es : List (String × α)) :
    t.extend (ofList es).entries = t.extend es :=
  extend_entries_extend t empty es

end FilterTemplate.Table
