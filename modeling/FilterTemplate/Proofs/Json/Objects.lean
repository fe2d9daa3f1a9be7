/-
  FilterTemplate.Proofs.Json.Objects

  Objects that are taken apart into their members. Reading more deeply nested
  texts refines reading others, so where the text of a value is given, with
  whatever depth, a reader that gets over it has read that value. An object is
  then read member by member, as its members are written. What reading one
  member keeps, reading the object keeps.
-/
import FilterTemplate.Json.Shape
import FilterTemplate.Proofs.Json.Values

namespace FilterTemplate.Json

namespace Reader

/-! ## Objects member by member -/

section

variable {α : Type}

theorem skipsSpace_expectMembers (expected : String) (member : α → Reader α) (a : α) :
    SkipsSpace (expectMembers expected member a) := by
  intro spaces s hspaces
  rw [expectMembers, expectMembers, skipSpace_append hspaces]

theorem expectMembers_cons (expected : String) (member : α → Reader α) (a : α) (s : List Char) :
    expectMembers expected member a ('\x7b' :: s) = items '\x7d' member a s := by
  rw [expectMembers, skipSpace_cons (by decide)]
  rfl

/-- An object is read as the grammar has it, whatever is made of its members. -/
theorem agrees_expectMembers (expected : String) (put : α → String × Json → α) (a : α)
    (budget : Nat) :
    Agrees (expectMembers expected (eachBy (pair (value budget)) put) a)
      (fun t c => ∃ ms, SpellsObject (Spells budget) t ms ∧ c = ms.foldl put a) where
  sound {s rest c} h := by
    rw [expectMembers] at h
    split at h
    next => exact absurd h (by simp)
    next t hskip =>
      obtain ⟨-, spaces, hspaces, rfl⟩ := skipSpace_eq_cons_iff.1 hskip
      obtain ⟨inner, ms, hinner, rfl, rfl⟩ :=
        (items_eq_ok_iff (agrees_member budget) (.inr rfl)).1 h
      exact ⟨spaces, _, hspaces, ⟨ms, ⟨inner, hinner, rfl⟩, rfl⟩, by simp⟩
    next => exact absurd h (by simp)
  complete {t rest c} h _ := by
    obtain ⟨ms, ⟨inner, hinner, rfl⟩, rfl⟩ := h
    rw [List.cons_append, expectMembers_cons, List.append_assoc, List.singleton_append]
    exact (items_eq_ok_iff (agrees_member budget) (.inr rfl)).2 ⟨inner, ms, hinner, rfl, rfl⟩
  head h := by
    obtain ⟨ms, ⟨inner, -, rfl⟩, -⟩ := h
    exact ⟨'\x7b', _, rfl, by decide, by decide, by decide⟩

end

/-! ## Other tallies of the same pieces -/

section

variable {α β γ : Type} {closing : Char} {read : Reader γ} {f : α → β} {put : α → γ → α}
  {put' : β → γ → β}

/-- What is read, seen through `f`; the rest of the text and errors stay. -/
def mapRead (f : α → β) (r : Except ReadError (α × List Char)) :
    Except ReadError (β × List Char) :=
  r.map fun (a, rest) => (f a, rest)

theorem eachBy_map (hput : ∀ a c, f (put a c) = put' (f a) c) (a : α) (s : List Char) :
    eachBy read put' (f a) s = mapRead f (eachBy read put a s) := by
  rw [eachBy, eachBy]
  cases read s with
  | error e => rfl
  | ok r =>
    obtain ⟨c, rest⟩ := r
    exact congrArg (fun b => Except.ok (b, rest)) (hput a c).symm

theorem eachBy_map_of_ok (hput : ∀ a c, f (put a c) = put' (f a) c) {a b : α}
    {s rest : List Char} (h : eachBy read put a s = .ok (b, rest)) :
    eachBy read put' (f a) s = .ok (f b, rest) := by
  rw [eachBy_map hput, h]
  rfl

/-- By induction along the reading; both tallies stop at the same place for the same reason. -/
theorem remainingItems_map (hput : ∀ a c, f (put a c) = put' (f a) c) (a : α) (s : List Char) :
    remainingItems closing (eachBy read put') (f a) s =
      mapRead f (remainingItems closing (eachBy read put) a s) := by
  fun_induction remainingItems closing (eachBy read put) a s with
  | case3 a s b rest hitem t hskip =>
    exact remainingItems_last (eachBy_map_of_ok hput hitem) hskip
  | case4 a s b rest hitem t hlt hskip hne ih =>
    rw [remainingItems_comma hne (eachBy_map_of_ok hput hitem) hskip hlt, ih]
  | case1 a s e hitem =>
    rw [remainingItems, eachBy_map hput, hitem]
    rfl
  | case2 a s b rest hitem hskip =>
    rw [remainingItems, eachBy_map hput, hitem]
    simp only [mapRead, Except.map, hskip]
  | case5 a s b rest hitem t hlt hskip hne =>
    rw [remainingItems, eachBy_map hput, hitem]
    simp only [mapRead, Except.map, hskip, if_neg hne, if_true, if_neg hlt]
  | case6 a s b rest hitem c t hskip hclosing hcomma =>
    rw [remainingItems, eachBy_map hput, hitem]
    simp only [mapRead, Except.map, hskip, if_neg hclosing, if_neg hcomma]

theorem items_map (hput : ∀ a c, f (put a c) = put' (f a) c) (a : α) (s : List Char) :
    items closing (eachBy read put') (f a) s =
      mapRead f (items closing (eachBy read put) a s) := by
  rw [items, items]
  cases skipSpace s with
  | nil => rfl
  | cons c t =>
    dsimp only
    by_cases hclosing : c = closing
    · rw [if_pos hclosing, if_pos hclosing]
      rfl
    · rw [if_neg hclosing, if_neg hclosing, remainingItems_map hput]

/-- Members may be tallied while they are read or afterwards. -/
theorem whole_expectMembers_map (hput : ∀ a c, f (put a c) = put' (f a) c) (expected : String)
    (a : α) (s : List Char) :
    whole (expectMembers expected (eachBy read put') (f a)) s =
      (whole (expectMembers expected (eachBy read put) a) s).map f := by
  have hmembers : expectMembers expected (eachBy read put') (f a) s =
      mapRead f (expectMembers expected (eachBy read put) a s) := by
    rw [expectMembers, expectMembers]
    split
    next => rfl
    next => exact items_map hput a _
    next => rfl
  rw [whole, whole, hmembers]
  cases expectMembers expected (eachBy read put) a s with
  | error e => rfl
  | ok r =>
    obtain ⟨b, rest⟩ := r
    simp only [mapRead, Except.map, bind, Except.bind]
    by_cases hrest : skipSpace rest = []
    · rw [if_pos hrest, if_pos hrest]
      rfl
    · rw [if_neg hrest, if_neg hrest]

end

/-! ## Refinement -/

/-- What the first reader reads the second one reads too. -/
def Refines {α : Type} (read read' : Reader α) : Prop :=
  ∀ {s : List Char} {r : α × List Char}, read s = .ok r → read' s = .ok r

theorem eachBy_refines {α β : Type} {read read' : Reader β} (h : Refines read read')
    (put : α → β → α) (a : α) : Refines (eachBy read put a) (eachBy read' put a) := by
  rintro s ⟨c, rest⟩ hs
  obtain ⟨b, hb, rfl⟩ := eachBy_eq_ok_iff.1 hs
  exact eachBy_eq_ok_iff.2 ⟨b, h hb, rfl⟩

theorem pair_refines {read read' : Reader Json} (h : Refines read read') :
    Refines (pair read) (pair read') := by
  rintro s ⟨m, rest⟩ hs
  obtain ⟨t, u, hname, hcolon, hvalue⟩ := pair_eq_ok_iff.1 hs
  exact pair_eq_ok_iff.2 ⟨t, u, hname, hcolon, h hvalue⟩

section

variable {α : Type} {closing : Char} {item item' : α → Reader α}

theorem remainingItems_refines (h : ∀ a, Refines (item a) (item' a)) (a : α) :
    Refines (remainingItems closing item a) (remainingItems closing item' a) := by
  intro s r hs
  fun_induction remainingItems closing item a s with
  | case3 a s b rest hitem t hskip => rw [remainingItems_last (h a hitem) hskip, hs]
  | case4 a s b rest hitem t hlt hskip hne ih =>
    rw [remainingItems_comma hne (h a hitem) hskip hlt, ih hs]
  | _ => exact absurd hs (by simp)

theorem items_refines (h : ∀ a, Refines (item a) (item' a)) (a : α) :
    Refines (items closing item a) (items closing item' a) := by
  intro s r hs
  rw [items] at hs ⊢
  cases hskip : skipSpace s with
  | nil =>
    rw [hskip] at hs
    exact absurd hs (by simp)
  | cons c t =>
    rw [hskip] at hs
    dsimp only at hs ⊢
    by_cases hc : c = closing
    · rwa [if_pos hc] at hs ⊢
    · rw [if_neg hc] at hs ⊢
      exact remainingItems_refines h a hs

end

theorem bind_eq_ok_of_imp {α β : Type} {x y : Except ReadError α} {f : α → Except ReadError β}
    {b : β} (h : ∀ a, x = .ok a → y = .ok a) (hx : (x >>= f) = .ok b) : (y >>= f) = .ok b := by
  obtain ⟨a, ha, hb⟩ := bind_eq_ok_iff.1 hx
  exact bind_eq_ok_iff.2 ⟨a, h a ha, hb⟩

/-- By induction on how deep containers may nest. -/
theorem value_refines_succ (budget : Nat) : Refines (value budget) (value (budget + 1)) := by
  induction budget with
  | zero =>
    intro s r hs
    rw [value] at hs
    rw [value_succ]
    cases hskip : skipSpace s with
    | nil =>
      rw [hskip] at hs
      exact absurd hs (by simp)
    | cons c t =>
      rw [hskip] at hs
      dsimp only at hs ⊢
      by_cases hc : c = '[' ∨ c = '\x7b'
      · rw [if_pos hc] at hs
        exact absurd hs (by simp)
      · rw [if_neg hc] at hs
        rw [not_or] at hc
        rwa [if_neg hc.1, if_neg hc.2]
  | succ budget ih =>
    have hitems : Refines (itemsOf budget) (itemsOf (budget + 1)) :=
      items_refines (fun a => eachBy_refines ih _ a) []
    have hmembers : Refines (membersOf budget) (membersOf (budget + 1)) :=
      items_refines (fun a => eachBy_refines (pair_refines ih) _ a) Members.nil
    intro s r hs
    rw [value_succ] at hs ⊢
    cases hskip : skipSpace s with
    | nil =>
      rw [hskip] at hs
      exact absurd hs (by simp)
    | cons c t =>
      rw [hskip] at hs
      dsimp only at hs ⊢
      by_cases harray : c = '['
      · rw [if_pos harray] at hs ⊢
        exact bind_eq_ok_of_imp (fun _ hjs => hitems hjs) hs
      rw [if_neg harray] at hs ⊢
      by_cases hobject : c = '\x7b'
      · rw [if_pos hobject] at hs ⊢
        exact bind_eq_ok_of_imp (fun _ hms => hmembers hms) hs
      · rwa [if_neg hobject] at hs ⊢

/-- What is read with one budget is read with a greater one. -/
theorem value_refines_of_le {budget budget' : Nat} (hle : budget ≤ budget') :
    Refines (value budget) (value budget') := by
  induction hle with
  | refl => exact id
  | step _ ih => exact fun hs => value_refines_succ _ (ih hs)

/-! ## Invariants -/

/-- What holds of all that is read so far holds of it with the next item. -/
def Keeps {α : Type} (P : α → Prop) (item : α → Reader α) : Prop :=
  ∀ {a b : α} {s rest : List Char}, item a s = .ok (b, rest) → P a → P b

section

variable {α : Type} {P : α → Prop} {closing : Char} {item : α → Reader α}

/-- By induction along the reading: what each item keeps, all of them keep. -/
theorem remainingItems_keeps (h : Keeps P item) : Keeps P (remainingItems closing item) := by
  intro a b s rest hs ha
  fun_induction remainingItems closing item a s with
  | case3 a s c rest' hitem t hskip =>
    obtain ⟨rfl, -⟩ := Prod.mk.inj (Except.ok.inj hs)
    exact h hitem ha
  | case4 a s c rest' hitem t hlt hskip hne ih => exact ih hs (h hitem ha)
  | _ => exact absurd hs (by simp)

theorem items_keeps (h : Keeps P item) : Keeps P (items closing item) := by
  intro a b s rest hs ha
  rw [items] at hs
  split at hs
  next => exact absurd hs (by simp)
  next c t hskip =>
    by_cases hc : c = closing
    · rw [if_pos hc] at hs
      obtain ⟨rfl, -⟩ := Prod.mk.inj (Except.ok.inj hs)
      exact ha
    · rw [if_neg hc] at hs
      exact remainingItems_keeps h hs ha

theorem expectMembers_keeps (h : Keeps P item) (expected : String) :
    Keeps P (expectMembers expected item) := by
  intro a b s rest hs ha
  rw [expectMembers] at hs
  split at hs
  next => exact absurd hs (by simp)
  next => exact items_keeps h hs ha
  next => exact absurd hs (by simp)

end

/-! ## Given texts -/

/-- A reader that gets over the text of a value has read that value. -/
theorem value_of_padded {budget depth : Nat} {t rest r : List Char} {j v : Json}
    (ht : Padded (Spells depth) t v) (hrest : EndsNumeral rest)
    (h : value budget (t ++ rest) = .ok (j, r)) :
    Padded (Spells budget) t v ∧ j = v ∧ ∃ after, IsSpaces after ∧ r = after ++ rest := by
  cases ht with
  | @intro before core after _ hbefore hcore hafter =>
    -- The greater of the two budgets is enough to read the text as it is given.
    have hgiven : value (max budget depth) (before ++ core ++ after ++ rest) =
        .ok (v, after ++ rest) := by
      rw [List.append_assoc, List.append_assoc, skipsSpace_value _ _ hbefore]
      exact (agrees_value _).complete (spells_of_le (Nat.le_max_right _ _) hcore)
        (endsNumeral_append hafter hrest)
    have hread := value_refines_of_le (Nat.le_max_left budget depth) h
    rw [hgiven] at hread
    obtain ⟨rfl, rfl⟩ := Prod.mk.inj (Except.ok.inj hread)
    -- What the reader took off the front is the text up to the same place.
    obtain ⟨before', core', hbefore', hcore', hs⟩ := (agrees_value budget).sound h
    rw [← List.append_assoc, ← List.append_assoc, List.append_cancel_right_eq] at hs
    rw [hs]
    exact ⟨.intro hbefore' hcore' hafter, rfl, after, hafter, rfl⟩

/-- A reader that gets over the text of a member has read that member. -/
theorem pair_of_text {budget : Nat} {m : MemberText} {rest r : List Char} {x : String × Json}
    (hrest : EndsNumeral rest)
    (h : pair (value budget) (skipSpace (m.text ++ rest)) = .ok (x, r)) :
    m.IsWithin budget ∧ x = m.member ∧ ∃ after, IsSpaces after ∧ r = after ++ rest := by
  obtain ⟨key, after, hafter, hkey, hskip⟩ :=
    agrees_quoteThen_string.skipSpace_padded m.spells_name
  rw [MemberText.text, List.append_assoc, List.cons_append, hskip] at h
  obtain ⟨t, u, hname, hcolon, hvalue⟩ := pair_eq_ok_iff.1 h
  rw [quoteThen_string_complete hkey] at hname
  obtain ⟨hx, rfl⟩ := Prod.mk.inj (Except.ok.inj hname)
  rw [colon_eq_ok_iff.2 ⟨after, hafter, rfl⟩] at hcolon
  obtain rfl := Except.ok.inj hcolon
  obtain ⟨depth, hdepth⟩ := m.spells_value
  obtain ⟨hwithin, hj, hr⟩ := value_of_padded hdepth hrest hvalue
  exact ⟨hwithin, Prod.ext hx.symm hj, hr⟩

/-! ## Texts by their members -/

theorem padded_text {budget : Nat} {m : MemberText} (h : m.IsWithin budget) :
    Padded (SpellsMember (Spells budget)) m.text m.member := by
  obtain ⟨name, nameText, hname, v, valueText, hvalue⟩ := m
  cases hname with
  | @intro before key between _ hbefore hkey hbetween =>
    cases h with
    | @intro before' core after _ hbefore' hcore hafter =>
      have hmember := Padded.intro hbefore
        (SpellsMember.intro hkey hbetween hbefore' hcore) hafter
      simpa [MemberText.text, MemberText.member] using hmember

theorem listed_texts {budget : Nat} {ms : List MemberText} (h : ∀ m ∈ ms, m.IsWithin budget) :
    Listed (SpellsMember (Spells budget)) (MemberText.texts ms) (ms.map MemberText.member) := by
  induction ms with
  | nil => exact .empty isSpaces_nil
  | cons m ms ih =>
    rw [List.forall_mem_cons] at h
    cases ms with
    | nil => exact .last (padded_text h.1)
    | cons n ms => exact .cons (padded_text h.1) (by simp) (ih h.2)

section

variable {α : Type} {put : α → String × Json → α} {budget : Nat}

theorem exists_eq_of_remainingItems {closing : Char} {item : α → Reader α} {a : α}
    {s : List Char} {r : α × List Char} (h : remainingItems closing item a s = .ok r) :
    ∃ b rest, item a s = .ok (b, rest) := by
  rw [remainingItems] at h
  split at h
  next => exact absurd h (by simp)
  next b rest hitem => exact ⟨b, rest, hitem⟩

theorem remainingItems_of_comma {closing : Char} (hclosing : ',' ≠ closing)
    {item : α → Reader α} {a b : α} {s t rest : List Char} {r : α × List Char}
    (h : remainingItems closing item a s = .ok r) (hitem : item a s = .ok (b, rest))
    (hskip : skipSpace rest = ',' :: t) :
    remainingItems closing item b (skipSpace t) = .ok r := by
  rw [remainingItems, hitem] at h
  dsimp only at h
  rw [hskip] at h
  dsimp only at h
  rw [if_neg hclosing, if_pos rfl] at h
  split at h
  next => exact h
  next => exact absurd h (by simp)

/-- By induction on the members, each of which is read where it is written. -/
theorem isWithin_of_remainingItems {ms : List MemberText} {a : α} {after : List Char}
    {r : α × List Char} (h : remainingItems '\x7d' (eachBy (pair (value budget)) put) a
      (skipSpace (MemberText.texts ms ++ '\x7d' :: after)) = .ok r) :
    ∀ m ∈ ms, m.IsWithin budget := by
  induction ms generalizing a with
  | nil => exact fun m hm => absurd hm (by simp)
  | cons m ms ih =>
    obtain ⟨b, rest, hitem⟩ := exists_eq_of_remainingItems h
    obtain ⟨x, hx, rfl⟩ := eachBy_eq_ok_iff.1 hitem
    cases ms with
    | nil => exact List.forall_mem_singleton.2 (pair_of_text (endsNumeral_cons (by decide)) hx).1
    | cons n ms =>
      have hsplit : MemberText.texts (m :: n :: ms) ++ '\x7d' :: after =
          m.text ++ ',' :: (MemberText.texts (n :: ms) ++ '\x7d' :: after) := by
        simp [MemberText.texts]
      rw [hsplit] at h hitem hx
      obtain ⟨hwithin, -, spaces, hspaces, rfl⟩ :=
        pair_of_text (endsNumeral_cons (by decide)) hx
      have hcomma := skipSpace_append_cons hspaces (c := ',') (by decide)
        (MemberText.texts (n :: ms) ++ '\x7d' :: after)
      exact List.forall_mem_cons.2
        ⟨hwithin, ih (remainingItems_of_comma (by decide) h hitem hcomma)⟩

/-- A member begins with the quote of its name. -/
theorem exists_skipSpace_texts (m : MemberText) (ms : List MemberText) (rest : List Char) :
    ∃ t, skipSpace (MemberText.texts (m :: ms) ++ rest) = '"' :: t := by
  obtain ⟨key, after, -, hkey, hskip⟩ := agrees_quoteThen_string.skipSpace_padded m.spells_name
  obtain ⟨u, rfl⟩ := exists_eq_quote_of_spellsString hkey
  have hquote (s : List Char) : ∃ t, skipSpace (m.text ++ s) = '"' :: t := by
    rw [MemberText.text, List.append_assoc, hskip]
    exact ⟨_, rfl⟩
  cases ms with
  | nil => exact hquote rest
  | cons n ms =>
    rw [MemberText.texts, List.append_assoc]
    exact hquote _

theorem isWithin_of_items {ms : List MemberText} {a : α} {inside after : List Char}
    {r : α × List Char} (hinside : IsSpaces inside)
    (h : items '\x7d' (eachBy (pair (value budget)) put) a
      (inside ++ (MemberText.texts ms ++ '\x7d' :: after)) = .ok r) :
    ∀ m ∈ ms, m.IsWithin budget := by
  cases ms with
  | nil => exact fun m hm => absurd hm (by simp)
  | cons m ms =>
    obtain ⟨t, hskip⟩ := exists_skipSpace_texts m ms ('\x7d' :: after)
    rw [← skipSpace_append hinside] at hskip
    rw [items_of_ne hskip (by decide), skipSpace_append hinside] at h
    exact isWithin_of_remainingItems h

/-- The text of an object is read if its members nest no deeper than the budget, and then they
count in their order. -/
theorem whole_expectMembers_eq_ok_iff {members : List MemberText} {text : List Char}
    (htext : IsObjectText members text) {expected : String} {a c : α} :
    whole (expectMembers expected (eachBy (pair (value budget)) put) a) text = .ok c ↔
      (∀ m ∈ members, m.IsWithin budget) ∧ c = (members.map MemberText.member).foldl put a := by
  cases htext with
  | @intro before inside after hbefore hinside hafter =>
    have hcomplete (hwithin : ∀ m ∈ members, m.IsWithin budget) :
        whole (expectMembers expected (eachBy (pair (value budget)) put) a)
          (before ++ '\x7b' :: (inside ++ (MemberText.texts members ++ '\x7d' :: after))) =
          .ok ((members.map MemberText.member).foldl put a) := by
      have hlisted := (listed_texts hwithin).spaces_append hinside
      have hwhole := (whole_eq_ok_iff (agrees_expectMembers expected put a budget)
        (skipsSpace_expectMembers expected _ a)).2
          (.intro hbefore ⟨_, ⟨_, hlisted, rfl⟩, rfl⟩ hafter)
      simpa using hwhole
    constructor
    · intro h
      have hwithin : ∀ m ∈ members, m.IsWithin budget := by
        obtain ⟨r, hr, -⟩ := bind_eq_ok_iff.1 h
        rw [skipsSpace_expectMembers expected _ a _ hbefore, expectMembers_cons] at hr
        exact isWithin_of_items hinside hr
      rw [hcomplete hwithin] at h
      exact ⟨hwithin, (Except.ok.inj h).symm⟩
    · rintro ⟨hwithin, rfl⟩
      exact hcomplete hwithin

end

end Reader

end FilterTemplate.Json
