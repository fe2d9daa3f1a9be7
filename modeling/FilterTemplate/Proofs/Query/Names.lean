/-
  FilterTemplate.Proofs.Query.Names

  When generated names are distinct. A name is a path and a count with nothing
  between them, so two names can agree although their paths differ, but only if
  one path is the other with digits behind it. Where no two paths stand so, the
  names of a run are pairwise distinct.
-/
import FilterTemplate.Proofs.Query.Bindings
import FilterTemplate.Proofs.Substitution
import Mathlib.Data.List.Basic

namespace FilterTemplate

/-- The path `longer` is `path` with digits behind it. -/
def DigitsBehind (path longer : String) : Prop :=
  ∃ digits : List Char, digits ≠ [] ∧ (∀ c ∈ digits, c.isDigit = true) ∧
    longer.toList = path.toList ++ digits

/-- What stands behind a text in a longer one is what is left when the text is dropped. -/
theorem exists_eq_append_iff {s t : List Char} {P : List Char → Prop} :
    (∃ rest, P rest ∧ t = s ++ rest) ↔ s <+: t ∧ P (t.drop s.length) := by
  constructor
  · rintro ⟨rest, hrest, rfl⟩
    rw [List.drop_left]
    exact ⟨List.prefix_append s rest, hrest⟩
  · rintro ⟨⟨rest, rfl⟩, hrest⟩
    rw [List.drop_left] at hrest
    exact ⟨rest, hrest, rfl⟩

theorem digitsBehind_iff (path longer : String) :
    DigitsBehind path longer ↔ path.toList <+: longer.toList ∧
      longer.toList.drop path.toList.length ≠ [] ∧
      (longer.toList.drop path.toList.length).all Char.isDigit = true := by
  rw [List.all_eq_true, ← exists_eq_append_iff
    (P := fun rest => rest ≠ [] ∧ ∀ c ∈ rest, c.isDigit = true)]
  simp only [DigitsBehind, and_assoc]

instance (path longer : String) : Decidable (DigitsBehind path longer) :=
  decidable_of_iff _ (digitsBehind_iff path longer).symm

/-! ## Names -/

namespace Query

theorem toList_paramName (path : String) (count : Nat) :
    (paramName path count).toList = path.toList ++ Nat.toDigits 10 count := by
  rw [paramName, String.toList_append, Nat.toString_eq_ofList_toDigits, String.toList_ofList]

/-- A character that is no digit gets into a name with the path only. -/
theorem not_mem_paramName {path : String} {c : Char} (hpath : c ∉ path.toList)
    (hc : c.isDigit = false) (count : Nat) : c ∉ (paramName path count).toList := by
  rw [toList_paramName, List.mem_append, not_or]
  refine ⟨hpath, fun hm => ?_⟩
  rw [Nat.isDigit_of_mem_toDigits (by decide) (by decide) hm] at hc
  exact absurd hc (by decide)

theorem isPlainName_paramName {path : String} (h : IsPlainName path) (count : Nat) :
    IsPlainName (paramName path count) := by
  refine ⟨?_, ?_, ?_⟩
  · exact not_mem_paramName h.1 (by decide) count
  · exact not_mem_paramName h.2.1 (by decide) count
  · exact not_mem_paramName h.2.2 (by decide) count

/-- Two names agree only if path and count do, or if the digits of one count
reach into the other path. -/
theorem paramName_eq_cases {p q : String} {m n : Nat} (h : paramName p m = paramName q n) :
    (p = q ∧ m = n) ∨
      (∃ digits, digits ≠ [] ∧ q.toList = p.toList ++ digits ∧
        Nat.toDigits 10 m = digits ++ Nat.toDigits 10 n) ∨
      ∃ digits, digits ≠ [] ∧ p.toList = q.toList ++ digits ∧
        Nat.toDigits 10 n = digits ++ Nat.toDigits 10 m := by
  have hlists := congrArg String.toList h
  rw [toList_paramName, toList_paramName, List.append_eq_append_iff] at hlists
  have hsame : ∀ digits : List Char, digits = [] → q.toList = p.toList ++ digits →
      Nat.toDigits 10 m = digits ++ Nat.toDigits 10 n → p = q ∧ m = n := by
    rintro _ rfl hpath hcount
    rw [List.append_nil] at hpath
    exact ⟨String.toList_inj.1 hpath.symm, toDigits_inj hcount⟩
  -- The longer path has digits of the other count behind the shorter one.
  rcases hlists with ⟨digits, hpath, hcount⟩ | ⟨digits, hpath, hcount⟩
  · by_cases hnil : digits = []
    · exact .inl (hsame digits hnil hpath hcount)
    · exact .inr (.inl ⟨digits, hnil, hpath, hcount⟩)
  · by_cases hnil : digits = []
    · subst hnil
      rw [List.append_nil] at hpath
      exact .inl ⟨String.toList_inj.1 hpath, toDigits_inj hcount.symm⟩
    · exact .inr (.inr ⟨digits, hnil, hpath, hcount⟩)

/-- No path of the comparisons is another with a number behind it. -/
def PathsApart (cs : List Comparison) : Prop :=
  ∀ c ∈ cs, ∀ d ∈ cs, ∀ digits : List Char, digits ≠ [] → digits.head? ≠ some '0' →
    (∀ x ∈ digits, x.isDigit = true) → d.path.toList ≠ c.path.toList ++ digits

/-- Where paths are apart, two names with positive counts agree only if path and
count do. -/
theorem paramName_inj_of_pathsApart {cs : List Comparison} (h : PathsApart cs)
    {c d : Comparison} (hc : c ∈ cs) (hd : d ∈ cs) {m n : Nat} (hm : 0 < m) (hn : 0 < n)
    (heq : paramName c.path m = paramName d.path n) : c.path = d.path ∧ m = n := by
  have hclash : ∀ {c d : Comparison} {m n : Nat} {digits : List Char}, c ∈ cs → d ∈ cs → 0 < m →
      digits ≠ [] → d.path.toList = c.path.toList ++ digits →
      Nat.toDigits 10 m = digits ++ Nat.toDigits 10 n → False := by
    intro c d m n digits hc hd hm hne hpath hcount
    -- What the longer path has more begins a count, so it is digits without a zero in front.
    refine h c hc d hd digits hne ?_ ?_ hpath
    · have hhead := head?_toDigits_ne_zero hm
      rwa [hcount, List.head?_append_of_ne_nil _ hne] at hhead
    · intro x hx
      have hmem : x ∈ Nat.toDigits 10 m := hcount ▸ List.mem_append_left _ hx
      exact Nat.isDigit_of_mem_toDigits (by decide) (by decide) hmem
  rcases paramName_eq_cases heq with
    hsame | ⟨digits, hne, hpath, hcount⟩ | ⟨digits, hne, hpath, hcount⟩
  · exact hsame
  · exact (hclash hc hd hm hne hpath hcount).elim
  · exact (hclash hd hc hn hne hpath hcount).elim

theorem nodup_names_of_pathsApart {cs : List Comparison} (h : PathsApart cs)
    (uses : String → Nat) : ((Comparison.bindings uses cs).map Prod.fst).Nodup := by
  induction cs generalizing uses with
  | nil => exact List.nodup_nil
  | cons c rest ih =>
    have hrest : PathsApart rest := fun d hd e he =>
      h d (List.mem_cons_of_mem c hd) e (List.mem_cons_of_mem c he)
    rw [Comparison.bindings, List.map_cons, List.nodup_cons]
    refine ⟨?_, ih hrest _⟩
    intro hmem
    obtain ⟨b, hb, hname⟩ := List.mem_map.1 hmem
    obtain ⟨d, hd, -, count, hcount, hb'⟩ := Comparison.exists_of_mem_bindings hb
    obtain ⟨hpath, rfl⟩ := paramName_inj_of_pathsApart h List.mem_cons_self
      (List.mem_cons_of_mem c hd) (by omega) (by omega) (hname.symm.trans hb')
    -- The use at the head is counted, so the same path goes on with a greater count.
    rw [← hpath, Comparison.countUse, if_pos rfl] at hcount
    omega

end Query

end FilterTemplate
