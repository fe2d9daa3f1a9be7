/-
  FilterTemplate.Table

  Tables from names to values in the order of insertion, each name once.
  Setting a name that is there already keeps its place; `exchange` also gives
  back the value that it had.
-/

namespace FilterTemplate

/-- Named values in order. -/
@[ext] structure Table (α : Type) where
  entries : List (String × α)
  /-- No name stands twice. -/
  nodup : (entries.map Prod.fst).Nodup

namespace Table

variable {α β : Type}

/-- The table without entries. -/
def empty : Table α :=
  ⟨[], .nil⟩

instance : Inhabited (Table α) := ⟨empty⟩

/-! ## Looking up -/

/-- The value of a name. -/
def get? (t : Table α) (name : String) : Option α :=
  t.entries.lookup name

/-- The table has the name. -/
def contains (t : Table α) (name : String) : Bool :=
  (t.get? name).isSome

/-- The names in order. -/
def keys (t : Table α) : List String :=
  t.entries.map Prod.fst

/-- The number of entries. -/
def size (t : Table α) : Nat :=
  t.entries.length

/-! ## Entries with a name set -/

/-- The entries with a name set: at its place if it is there, at the end otherwise. -/
def setEntry (name : String) (value : α) : List (String × α) → List (String × α)
  | [] => [(name, value)]
  | (k, v) :: rest =>
    if k = name then (k, value) :: rest else (k, v) :: setEntry name value rest

/-- The entries with a name set as `setEntry` sets it, and the value that the name had. -/
def exchangeEntry (name : String) (value : α) :
    List (String × α) → Option α × List (String × α)
  | [] => (none, [(name, value)])
  | (k, v) :: rest =>
    if k = name then (some v, (k, value) :: rest)
    else
      let (before, entries) := exchangeEntry name value rest
      (before, (k, v) :: entries)

theorem exchangeEntry_eq (name : String) (value : α) (entries : List (String × α)) :
    exchangeEntry name value entries = (entries.lookup name, setEntry name value entries) := by
  induction entries with
  | nil => rfl
  | cons e rest ih =>
    obtain ⟨k, v⟩ := e
    by_cases hk : k = name
    · rw [exchangeEntry, if_pos hk, setEntry, if_pos hk, List.lookup_cons, beq_iff_eq.2 hk.symm]
    · rw [exchangeEntry, if_neg hk, setEntry, if_neg hk, List.lookup_cons,
        beq_eq_false_iff_ne.2 (Ne.symm hk), ih]

/-- A new name goes to the end, and one that is there moves nowhere. -/
theorem map_fst_setEntry (name : String) (value : α) (entries : List (String × α)) :
    (setEntry name value entries).map Prod.fst =
      if name ∈ entries.map Prod.fst then entries.map Prod.fst
      else entries.map Prod.fst ++ [name] := by
  induction entries with
  | nil => simp [setEntry]
  | cons e rest ih =>
    obtain ⟨j, v⟩ := e
    by_cases hj : j = name
    · simp [setEntry, hj]
    · have hn : name ≠ j := Ne.symm hj
      by_cases hm : name ∈ rest.map Prod.fst
      · simp only [setEntry, hj, if_false, List.map_cons, ih, List.mem_cons, hn, false_or, hm,
          if_true]
      · simp only [setEntry, hj, if_false, List.map_cons, ih, List.mem_cons, hn, false_or, hm,
          List.cons_append]

theorem nodup_setEntry {entries : List (String × α)} (h : (entries.map Prod.fst).Nodup)
    (name : String) (value : α) : ((setEntry name value entries).map Prod.fst).Nodup := by
  rw [map_fst_setEntry]
  split
  next => exact h
  next hnew =>
    rw [List.nodup_append]
    refine ⟨h, by simp, ?_⟩
    intro k hk j hj heq
    rw [List.mem_singleton.1 hj] at heq
    exact hnew (heq ▸ hk)

/-- Setting a name is seen by the next look-up of that name and by no other. -/
theorem lookup_setEntry (name k : String) (value : α) (entries : List (String × α)) :
    (setEntry name value entries).lookup k = if k = name then some value else entries.lookup k := by
  induction entries with
  | nil =>
    by_cases h : k = name
    · simp [setEntry, h]
    · simp [setEntry, List.lookup_cons, beq_eq_false_iff_ne.2 h, h]
  | cons e rest ih =>
    obtain ⟨j, v⟩ := e
    by_cases hj : j = name
    · subst hj
      by_cases h : k = j
      · simp [setEntry, h]
      · simp [setEntry, List.lookup_cons, beq_eq_false_iff_ne.2 h, h]
    · by_cases h : k = j
      · subst h; simp [setEntry, hj]
      · simp [setEntry, List.lookup_cons, beq_eq_false_iff_ne.2 h, hj, ih]

/-! ## Inserting -/

/-- Sets a name. -/
def insert (t : Table α) (name : String) (value : α) : Table α :=
  ⟨setEntry name value t.entries, nodup_setEntry t.nodup name value⟩

/-- Sets a name and gives back the value that it had. -/
def exchange (t : Table α) (name : String) (value : α) : Option α × Table α :=
  match h : exchangeEntry name value t.entries with
  | (before, entries) =>
    -- In the entries as `setEntry` leaves them no name stands twice.
    have hset : entries = setEntry name value t.entries := by
      rw [exchangeEntry_eq] at h
      exact (congrArg Prod.snd h).symm
    (before, ⟨entries, hset ▸ nodup_setEntry t.nodup name value⟩)

/-- Sets the names of a list, one after the other. -/
def extend (t : Table α) (entries : List (String × α)) : Table α :=
  entries.foldl (fun t e => t.insert e.1 e.2) t

/-- The table that setting the names of a list makes. -/
def ofList (entries : List (String × α)) : Table α :=
  empty.extend entries

/-- The table with every value changed by `f`. -/
def map (f : α → β) (t : Table α) : Table β where
  entries := t.entries.map fun (name, v) => (name, f v)
  nodup := by
    rw [List.map_map]
    exact t.nodup

/-- The names of two tables agree in order, and so do their values. -/
def equalBy (same : α → α → Bool) (t u : Table α) : Bool :=
  t.size == u.size &&
    (t.entries.zip u.entries).all fun (x, y) => x.1 == y.1 && same x.2 y.2

/-! ## Laws -/

@[simp] theorem extend_nil (t : Table α) : t.extend [] = t := rfl

@[simp] theorem extend_cons (t : Table α) (e : String × α) (es : List (String × α)) :
    t.extend (e :: es) = (t.insert e.1 e.2).extend es := rfl

theorem extend_append (t : Table α) (es fs : List (String × α)) :
    t.extend (es ++ fs) = (t.extend es).extend fs := by
  simp [extend, List.foldl_append]

theorem nodup_keys (t : Table α) : t.keys.Nodup :=
  t.nodup

theorem get?_insert (t : Table α) (name k : String) (value : α) :
    (t.insert name value).get? k = if k = name then some value else t.get? k :=
  lookup_setEntry name k value t.entries

theorem keys_insert (t : Table α) (name : String) (value : α) :
    (t.insert name value).keys = if name ∈ t.keys then t.keys else t.keys ++ [name] :=
  map_fst_setEntry name value t.entries

end Table

end FilterTemplate
