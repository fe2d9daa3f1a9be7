/-
  FilterTemplate.Proofs.Query.Collisions

  When comparisons of one query share a generated name. Uses of one path never
  do, since their counts differ. Uses of two paths do not as long as no path is
  another with a number behind it; every comparison then has an entry of its own
  in the values. Otherwise they can: the use of a path whose count ends in a one
  has the name of the first use of the path that takes the other digits of the
  count to itself, and of the values bound to that name the last one stays.
-/
import FilterTemplate.Proofs.Query.Bookkeeping
import FilterTemplate.Proofs.Query.Names

namespace FilterTemplate

open Segment (sources)

/-! ## Equal names -/

namespace Query

theorem paramName_inj {path : String} {m n : Nat} (h : paramName path m = paramName path n) :
    m = n := by
  have hlists := congrArg String.toList h
  rw [toList_paramName, toList_paramName, List.append_cancel_left_eq] at hlists
  exact toDigits_inj hlists

/-- The number at the end of a path reads as the front of a count. -/
theorem paramName_append_number (path : String) {d : Nat} (hd : 0 < d) :
    paramName (path ++ toString d) 1 = paramName path (10 * d + 1) := by
  have hquotient : (10 * d + 1) / 10 = d := by omega
  have hremainder : (10 * d + 1) % 10 = 1 := by omega
  -- Without its last digit, a one, the count is `d`, which is positive and so has
  -- its digits in front of the one.
  have hdigits : Nat.toDigits 10 (10 * d + 1) = Nat.toDigits 10 d ++ Nat.toDigits 10 1 := by
    rw [Nat.toDigits_of_base_le (by decide) (by omega), hquotient, hremainder]
    rfl
  apply String.toList_inj.1
  rw [toList_paramName, toList_paramName, String.toList_append, Nat.toString_eq_ofList_toDigits,
    String.toList_ofList, hdigits, List.append_assoc]

theorem pathsApart_iff (cs : List Comparison) :
    PathsApart cs ↔ ∀ c ∈ cs, ∀ d ∈ cs,
      let behind := d.path.toList.drop c.path.toList.length
      ¬ (c.path.toList <+: d.path.toList ∧ behind ≠ [] ∧ behind.head? ≠ some '0' ∧
        behind.all Char.isDigit = true) := by
  refine forall₂_congr fun c _ => forall₂_congr fun d _ => ?_
  dsimp only
  rw [← exists_eq_append_iff (P := fun rest => rest ≠ [] ∧ rest.head? ≠ some '0' ∧
    rest.all Char.isDigit = true)]
  simp only [not_exists, not_and, and_imp, List.all_eq_true]

instance (cs : List Comparison) : Decidable (PathsApart cs) :=
  decidable_of_iff _ (pathsApart_iff cs).symm

end Query

/-! ## Uses of a path -/

namespace Comparison

/-- The comparison at a place of the list is the `n`-th of its path. -/
def IsUse (us : List Comparison) (i : Nat) (path : String) (n : Nat) : Prop :=
  ∃ c, us[i]? = some c ∧ c.path = path ∧ count path (us.take (i + 1)) = n

variable {us : List Comparison} {i j m n : Nat} {path : String}

theorem IsUse.getElem?_names (h : IsUse us i path n) :
    (names us)[i]? = some (Query.paramName path n) := by
  obtain ⟨c, hc, hpath, hcount⟩ := h
  rw [names, List.getElem?_mapIdx, hc, Option.map_some, hpath, hcount]

/-- Later uses have greater counts. -/
theorem IsUse.lt (hi : IsUse us i path m) (hj : IsUse us j path n) (h : i < j) : m < n := by
  obtain ⟨-, -, -, hm⟩ := hi
  obtain ⟨c, hc, hpath, hn⟩ := hj
  have hbefore : count path (us.take (i + 1)) ≤ count path (us.take j) :=
    (List.take_prefix_take_left (by omega)).sublist.countP_le
  -- The later use counts itself and all that came before it.
  have hitself : count path (us.take (j + 1)) = count path (us.take j) + 1 := by
    rw [List.take_add_one, hc, count, List.countP_append, ← count]
    simp [hpath]
  omega

theorem IsUse.names_ne (hi : IsUse us i path m) (hj : IsUse us j path n) (h : i ≠ j) :
    (names us)[i]? ≠ (names us)[j]? := by
  rw [hi.getElem?_names, hj.getElem?_names]
  intro heq
  have hcount : m = n := Query.paramName_inj (Option.some.inj heq)
  rcases Nat.lt_or_gt_of_ne h with hlt | hlt
  · exact absurd (hi.lt hj hlt) (by omega)
  · exact absurd (hj.lt hi hlt) (by omega)

/-- What comparisons bind is the list of their names beside that of their values. -/
theorem bindings_zero_eq_zip (us : List Comparison) :
    bindings (fun _ => 0) us = (names us).zip (us.map value) :=
  List.zip_of_prod (map_fst_bindings_zero us) (map_snd_bindings (fun _ => 0) us)

/-- A name that is generated at a place is generated a last time, at that place
unless it is generated once more behind it. -/
theorem exists_last_name {ns : List String} {name : String} (h : ns[i]? = some name) :
    ∃ k, i ≤ k ∧ ns[k]? = some name ∧ name ∉ ns.drop (k + 1) ∧
      (name ∉ ns.drop (i + 1) → k = i) := by
  induction ns generalizing i with
  | nil => exact absurd h (by simp)
  | cons first ns ih =>
    by_cases hlater : name ∈ ns.drop i
    · -- A place behind `i` has the name too, so the last such place in the rest is the one.
      obtain ⟨l, hl⟩ := List.mem_iff_getElem?.1 hlater
      rw [List.getElem?_drop] at hl
      obtain ⟨k, hk, hname, hlast, -⟩ := ih hl
      exact ⟨k + 1, by omega, hname, hlast, fun hnone => absurd hlater hnone⟩
    · exact ⟨i, Nat.le_refl i, h, hlater, fun _ => rfl⟩

end Comparison

/-! ## Values -/

namespace Query

open Comparison (names)

/-- Where paths are apart, the values of a run are its comparisons, one entry each. -/
theorem entries_values_of_pathsApart {calls : List Call}
    (h : PathsApart (Call.comparisonsOfAll calls)) :
    (names (Call.comparisonsOfAll calls)).Nodup ∧
      (Session.run .empty calls).values.entries =
        (names (Call.comparisonsOfAll calls)).zip
          ((Call.comparisonsOfAll calls).map Comparison.value) := by
  have hnames := nodup_names_of_pathsApart h fun _ => 0
  rw [values_run_empty, Table.entries_ofList_of_nodup hnames, ← Comparison.bindings_zero_eq_zip,
    ← Comparison.map_fst_bindings_zero]
  exact ⟨hnames, rfl⟩

/-- A name that a comparison generates has the value of that comparison or of a
later one, and of a later one only if that generates the name once more. -/
theorem Keeps.exists_get?_values {q : Query} {us : List Comparison} (h : q.Keeps us) {i : Nat}
    {name : String} (hi : (names us)[i]? = some name) :
    ∃ k, i ≤ k ∧ (names us)[k]? = some name ∧
      q.values.get? name = us[k]?.map Comparison.value ∧
      (name ∉ (names us).drop (i + 1) → k = i) := by
  obtain ⟨k, hk, hname, hlast, hsame⟩ := Comparison.exists_last_name hi
  have hlength : k < us.length := by
    have hnames := (List.getElem?_eq_some_iff.1 hname).1
    rwa [Comparison.length_names] at hnames
  have hvalue : q.values.get? name = us[k]?.map Comparison.value := by
    rw [List.getElem?_eq_getElem hlength, Option.map_some]
    exact h.values k hlength name hname hlast
  exact ⟨k, hk, hname, hvalue, hsame⟩

end Query

/-! ## Runs -/

namespace Session

open Comparison (IsUse names)

/-- When generated names collide. At every moment of chains of calls on one query
the placeholders of its template have the names that counting the comparisons
gives, and each of them has one entry in the values. Two uses of one path have
different names. If no path is another with a number behind it, all names differ,
and the values are the comparisons made, in their order and each with its own
value. But use `10 * d + 1` of a path and the first use of that path with `d`
behind it have one name, whose value is never that of the earlier one: it is that
of the later one, or of a comparison behind both that generates the name again. -/
theorem names_of_reaches (chains : List (List Call)) (calls made : List Call) (t : Session)
    (h : Reaches (chains.foldl performAll .start) calls made t) :
    let us := Call.comparisonsOfAll (chains.flatten ++ made)
    (∃ parts, t.query.template.toList = sources parts ∧
        parts.filterMap Segment.name? = names us) ∧
      t.query.values.keys.Nodup ∧
      (∀ path i j m n, IsUse us i path m → IsUse us j path n → i ≠ j →
        (names us)[i]? ≠ (names us)[j]?) ∧
      (Query.PathsApart us → (names us).Nodup ∧
        t.query.values.entries = (names us).zip (us.map Comparison.value)) ∧
      ∀ path d i j, 0 < d → IsUse us i path (10 * d + 1) → IsUse us j (path ++ toString d) 1 →
        ∃ name k, (names us)[i]? = some name ∧ (names us)[j]? = some name ∧ max i j ≤ k ∧
          (names us)[k]? = some name ∧ t.query.values.get? name = us[k]?.map Comparison.value ∧
          (name ∉ (names us).drop (max i j + 1) → k = max i j) := by
  intro us
  have ht : t = performAll .start (chains.flatten ++ made) := h.eq_performAll_flatten
  have hkeeps : t.query.Keeps us := ht ▸ keeps_performAll_start _
  refine ⟨hkeeps.placeholders, hkeeps.nodup, fun path i j m n hi hj => hi.names_ne hj,
    fun hapart => ?_, ?_⟩
  · rw [ht]
    exact Query.entries_values_of_pathsApart hapart
  · intro path d i j hd hi hj
    have hfirst := hi.getElem?_names
    have hsecond := hj.getElem?_names
    rw [Query.paramName_append_number path hd] at hsecond
    -- The later of the two generates the name, so the last one to do so is not before it.
    have hlater : (names us)[max i j]? = some (Query.paramName path (10 * d + 1)) := by
      rcases Nat.le_total i j with hle | hle
      · rwa [Nat.max_eq_right hle]
      · rwa [Nat.max_eq_left hle]
    obtain ⟨k, hk⟩ := hkeeps.exists_get?_values hlater
    exact ⟨_, k, hfirst, hsecond, hk⟩

/-- The eleventh `age` comes after the first `age1`, inside a group, and takes its
name and its place among the values. The path `a01` is `a` with digits behind it
that are no number, and has names of its own. -/
theorem names_of_reaches_with_eleventh_use :
    let chains : List (List Call) := [[.equal "age1" (.int 999), .and]]
    let many : Call := .isIn "age" [.int 1, .int 2, .int 3, .int 4, .int 5, .int 6, .int 7, .int 8,
      .int 9, .int 10, .int 11]
    let apart : List Call := [.equal "a" (.int 1), .or, .equal "a01" (.int 2), .or,
      .equal "a" (.int 3)]
    (∃ t, Reaches (chains.foldl performAll .start) [.group [many]] [.openGroup, many] t ∧
      t.query.values.get? "age11" = some (.int 11)) ∧
    ∃ t, Reaches .start apart apart t ∧
      t.query.values.entries = [("a1", .int 1), ("a011", .int 2), ("a2", .int 3)] := by
  intro chains many apart
  have hshared : Reaches (chains.foldl performAll .start) [.group [many]] [.openGroup, many] _ :=
    .inside (.next .here)
  have hdistinct : Reaches (([] : List (List Call)).foldl performAll .start) apart apart _ :=
    reaches_performAll .start apart
  refine ⟨⟨_, hshared, ?_⟩, _, hdistinct, ?_⟩
  · obtain ⟨-, -, -, -, hcollide⟩ := names_of_reaches chains _ _ _ hshared
    obtain ⟨name, k, hname, -, -, -, hvalue, hlater⟩ := hcollide "age" 1 11 0 (by decide)
      ⟨⟨"age", .equal, .int 11⟩, rfl, rfl, by decide +kernel⟩
      ⟨⟨"age1", .equal, .int 999⟩, rfl, by decide +kernel, by decide +kernel⟩
    have heq : name = "age11" := Option.some.inj (hname.symm.trans (by decide +kernel))
    subst heq
    rw [hvalue, hlater (by decide +kernel)]
    rfl
  · obtain ⟨-, -, -, hapart, -⟩ := names_of_reaches [] _ _ _ hdistinct
    obtain ⟨-, hentries⟩ := hapart (by decide +kernel)
    have hnames : names (Call.comparisonsOfAll apart) = ["a1", "a011", "a2"] := by decide +kernel
    rw [hentries]
    show (names (Call.comparisonsOfAll apart)).zip _ = _
    rw [hnames]
    rfl

end Session

end FilterTemplate
