/-
  FilterTemplate.Proofs.Json.Values

  Readers of values against the grammar. Pieces between commas are read one
  after the other, so a container is read as the grammar has it if its pieces
  are; by induction on how deep containers may nest, so is every value. A text
  therefore stands for one value at most, and where a value ends does not depend
  on what follows.
-/
import FilterTemplate.Proofs.Json.Scalars

namespace FilterTemplate.Json

/-! ## Lists of pieces -/

theorem IsSpaces.append {s t : List Char} (hs : IsSpaces s) (ht : IsSpaces t) :
    IsSpaces (s ++ t) :=
  List.forall_mem_append.2 ⟨hs, ht⟩

section

variable {α : Type} {spells spells' : List Char → α → Prop}

theorem Padded.exists_eq {s : List Char} {a : α} (h : Padded spells s a) :
    ∃ before core after, IsSpaces before ∧ spells core a ∧ IsSpaces after ∧
      s = before ++ core ++ after := by
  cases h with
  | intro hbefore hcore hafter => exact ⟨_, _, _, hbefore, hcore, hafter, rfl⟩

theorem Padded.of_spells {s : List Char} {a : α} (h : spells s a) : Padded spells s a := by
  have hpadded := Padded.intro Reader.isSpaces_nil h Reader.isSpaces_nil
  rwa [List.nil_append, List.append_nil] at hpadded

theorem Padded.spaces_append {before s : List Char} {a : α} (hbefore : IsSpaces before)
    (h : Padded spells s a) : Padded spells (before ++ s) a := by
  cases h with
  | @intro before' core after _ hbefore' hcore hafter =>
    rw [← List.append_assoc, ← List.append_assoc]
    exact .intro (hbefore.append hbefore') hcore hafter

theorem Padded.mono {s : List Char} {a : α} (h : Padded spells s a)
    (hspells : ∀ t b, spells t b → spells' t b) : Padded spells' s a := by
  cases h with
  | intro hbefore hcore hafter => exact .intro hbefore (hspells _ _ hcore) hafter

theorem Listed.spaces_append {before s : List Char} {as : List α} (hbefore : IsSpaces before)
    (h : Listed spells s as) : Listed spells (before ++ s) as := by
  cases h with
  | empty hs => exact .empty (hbefore.append hs)
  | last hs => exact .last (hs.spaces_append hbefore)
  | cons hs hne ht =>
    rw [← List.append_assoc]
    exact .cons (hs.spaces_append hbefore) hne ht

theorem Listed.mono {s : List Char} {as : List α} (h : Listed spells s as)
    (hspells : ∀ t a, spells t a → spells' t a) : Listed spells' s as := by
  induction h with
  | empty hs => exact .empty hs
  | last hs => exact .last (hs.mono hspells)
  | cons hs hne _ ih => exact .cons (hs.mono hspells) hne ih

end

/-! ## Deeper nesting -/

theorem spells_of_scalar {budget : Nat} {t : List Char} {j : Json} (h : SpellsScalar t j) :
    Spells budget t j := by
  cases budget with
  | zero => exact h
  | succ budget => exact .inl h

theorem SpellsMember.mono {spells spells' : List Char → Json → Prop} {t : List Char}
    {m : String × Json} (h : SpellsMember spells t m) (hspells : ∀ t j, spells t j → spells' t j) :
    SpellsMember spells' t m := by
  cases h with
  | intro hkey hbetween hbefore hcore => exact .intro hkey hbetween hbefore (hspells _ _ hcore)

theorem spells_succ {budget : Nat} : ∀ {t : List Char} {j : Json}, Spells budget t j →
    Spells (budget + 1) t j := by
  induction budget with
  | zero => exact .inl
  | succ budget ih =>
    rintro t j (h | ⟨inner, js, hinner, ht⟩ | ⟨ms, ⟨inner, hinner, ht⟩, hj⟩)
    · exact .inl h
    · exact .inr (.inl ⟨inner, js, hinner.mono fun _ _ => ih, ht⟩)
    · exact .inr (.inr ⟨ms, ⟨inner, hinner.mono fun _ _ hm => hm.mono fun _ _ => ih, ht⟩, hj⟩)

/-- A text that nests no deeper than one budget nests no deeper than a greater one. -/
theorem spells_of_le {budget budget' : Nat} (hle : budget ≤ budget') {t : List Char} {j : Json}
    (h : Spells budget t j) : Spells budget' t j := by
  induction hle with
  | refl => exact h
  | step _ ih => exact spells_succ ih

/-! ## Reading lists of pieces -/

namespace Reader

/-- The character closes an array or an object. -/
def IsClosing (c : Char) : Prop :=
  c = ']' ∨ c = '\x7d'

theorem IsClosing.isSpace {c : Char} (h : IsClosing c) : isSpace c = false := by
  rcases h with rfl | rfl <;> decide

theorem IsClosing.continuesNumeral {c : Char} (h : IsClosing c) :
    continuesNumeral c = false := by
  rcases h with rfl | rfl <;> decide

theorem IsClosing.ne_comma {c : Char} (h : IsClosing c) : ',' ≠ c := by
  rcases h with rfl | rfl <;> decide

section

variable {α : Type} {closing : Char} {item : α → Reader α} {a b : α} {s t rest : List Char}

/-- An item with the closing mark behind it is the last one. -/
theorem remainingItems_last (hitem : item a s = .ok (b, rest))
    (hskip : skipSpace rest = closing :: t) : remainingItems closing item a s = .ok (b, t) := by
  rw [remainingItems, hitem]
  dsimp only
  rw [hskip]
  dsimp only
  rw [if_pos rfl]

/-- An item with a comma behind it has others behind it, if it takes anything off the text. -/
theorem remainingItems_comma (hclosing : ',' ≠ closing) (hitem : item a s = .ok (b, rest))
    (hskip : skipSpace rest = ',' :: t) (hlt : (skipSpace t).length < s.length) :
    remainingItems closing item a s = remainingItems closing item b (skipSpace t) := by
  rw [remainingItems, hitem]
  dsimp only
  rw [hskip]
  dsimp only
  rw [if_neg hclosing, if_pos rfl, if_pos hlt]

/-- Where no closing mark stands, the first item is due. -/
theorem items_of_ne {c : Char} (hskip : skipSpace s = c :: t) (hc : c ≠ closing) :
    items closing item a s = remainingItems closing item a (skipSpace s) := by
  rw [items, hskip]
  dsimp only
  rw [if_neg hc]

end

/-- Reads one more piece and puts it to what was read before. -/
def eachBy {α β : Type} (read : Reader β) (put : α → β → α) (a : α) : Reader α := fun s => do
  let (b, rest) ← read s
  return (put a b, rest)

section

variable {α β : Type} {read : Reader β} {spells : List Char → β → Prop} {put : α → β → α}
  {closing : Char}

theorem eachBy_eq_ok_iff {a c : α} {s rest : List Char} :
    eachBy read put a s = .ok (c, rest) ↔ ∃ b, read s = .ok (b, rest) ∧ c = put a b := by
  rw [eachBy, bind_eq_ok_iff]
  constructor
  · rintro ⟨⟨b, t⟩, hread, h⟩
    obtain ⟨rfl, rfl⟩ := Prod.mk.inj (Except.ok.inj h)
    exact ⟨b, hread, rfl⟩
  · rintro ⟨b, hread, rfl⟩
    exact ⟨(b, rest), hread, rfl⟩

/-- Behind the white space before it, a padded piece is read up to the white space after it. -/
theorem Agrees.skipSpace_padded (hread : Agrees read spells) {s : List Char} {b : β}
    (h : Padded spells s b) :
    ∃ core after, IsSpaces after ∧ spells core b ∧
      ∀ rest, skipSpace (s ++ rest) = core ++ (after ++ rest) := by
  cases h with
  | @intro before core after _ hbefore hcore hafter =>
    refine ⟨core, after, hafter, hcore, fun rest => ?_⟩
    obtain ⟨c, t, rfl, hc, -⟩ := hread.head hcore
    rw [List.append_assoc, List.append_assoc, List.cons_append, skipSpace_append_cons hbefore hc]

/-- No list of pieces begins with a closing mark. -/
theorem Agrees.exists_skipSpace_eq (hread : Agrees read spells) (hclosing : IsClosing closing)
    {inner : List Char} {bs : List β} (h : Listed spells inner bs) (hne : bs ≠ [])
    (rest : List Char) : ∃ c t, skipSpace (inner ++ rest) = c :: t ∧ c ≠ closing := by
  have hhead : ∀ {core : List Char} {b : β}, spells core b → ∀ u, ∃ c t,
      core ++ u = c :: t ∧ c ≠ closing := by
    intro core b hcore u
    obtain ⟨c, t, rfl, -, hbracket, hbrace⟩ := hread.head hcore
    exact ⟨c, t ++ u, rfl, by rcases hclosing with rfl | rfl <;> assumption⟩
  cases h with
  | empty => exact absurd rfl hne
  | last hs =>
    obtain ⟨core, after, -, hcore, hskip⟩ := hread.skipSpace_padded hs
    rw [hskip]
    exact hhead hcore _
  | cons hs =>
    obtain ⟨core, after, -, hcore, hskip⟩ := hread.skipSpace_padded hs
    rw [List.append_assoc, hskip]
    exact hhead hcore _

theorem remainingItems_sound (hread : Agrees read spells) {a b : α} {s rest : List Char}
    (h : remainingItems closing (eachBy read put) a s = .ok (b, rest)) :
    ∃ inner bs, Listed spells inner bs ∧ bs ≠ [] ∧ s = inner ++ closing :: rest ∧
      b = bs.foldl put a := by
  fun_induction remainingItems closing (eachBy read put) a s with
  | case3 a s a' r hitem t hskip =>
    obtain ⟨x, hx, rfl⟩ := eachBy_eq_ok_iff.1 hitem
    obtain ⟨rfl, rfl⟩ := Prod.mk.inj (Except.ok.inj h)
    obtain ⟨before, core, hbefore, hcore, rfl⟩ := hread.sound hx
    obtain ⟨-, after, hafter, rfl⟩ := skipSpace_eq_cons_iff.1 hskip
    exact ⟨_, [x], .last (.intro hbefore hcore hafter), by simp, by simp, rfl⟩
  | case4 a s a' r hitem t _ hskip _ ih =>
    obtain ⟨x, hx, rfl⟩ := eachBy_eq_ok_iff.1 hitem
    obtain ⟨before, core, hbefore, hcore, rfl⟩ := hread.sound hx
    obtain ⟨-, after, hafter, rfl⟩ := skipSpace_eq_cons_iff.1 hskip
    obtain ⟨inner, bs, hinner, hbs, hs, rfl⟩ := ih h
    obtain ⟨spaces, hspaces, ht⟩ := exists_eq_append_skipSpace t
    refine ⟨_, x :: bs, .cons (.intro hbefore hcore hafter) hbs (hinner.spaces_append hspaces),
      by simp, ?_, rfl⟩
    rw [ht, hs]
    simp
  | _ => exact absurd h (by simp)

theorem remainingItems_complete (hread : Agrees read spells) (hclosing : IsClosing closing)
    {inner : List Char} {bs : List β} (h : Listed spells inner bs) (hne : bs ≠ []) (a : α)
    (rest : List Char) :
    remainingItems closing (eachBy read put) a (skipSpace (inner ++ closing :: rest)) =
      .ok (bs.foldl put a, rest) := by
  induction h generalizing a with
  | empty => exact absurd rfl hne
  | @last s b hs =>
    obtain ⟨core, after, hafter, hcore, hskip⟩ := hread.skipSpace_padded hs
    have hends : EndsNumeral (after ++ closing :: rest) :=
      endsNumeral_append hafter (endsNumeral_cons hclosing.continuesNumeral)
    have hitem : eachBy read put a (core ++ (after ++ closing :: rest)) =
        .ok (put a b, after ++ closing :: rest) :=
      eachBy_eq_ok_iff.2 ⟨b, hread.complete hcore hends, rfl⟩
    rw [hskip, remainingItems_last hitem (skipSpace_append_cons hafter hclosing.isSpace rest)]
    rfl
  | @cons s t b bs hs hbs ht ih =>
    obtain ⟨core, after, hafter, hcore, hskip⟩ := hread.skipSpace_padded hs
    have hends : EndsNumeral (after ++ ',' :: (t ++ closing :: rest)) :=
      endsNumeral_append hafter (endsNumeral_cons (by decide))
    have hitem : eachBy read put a (core ++ (after ++ ',' :: (t ++ closing :: rest))) =
        .ok (put a b, after ++ ',' :: (t ++ closing :: rest)) :=
      eachBy_eq_ok_iff.2 ⟨b, hread.complete hcore hends, rfl⟩
    have hcomma : skipSpace (after ++ ',' :: (t ++ closing :: rest)) =
        ',' :: (t ++ closing :: rest) := skipSpace_append_cons hafter (by decide) _
    have hlt : (skipSpace (t ++ closing :: rest)).length <
        (core ++ (after ++ ',' :: (t ++ closing :: rest))).length := by
      have hle := length_skipSpace_le (t ++ closing :: rest)
      simp only [List.length_append, List.length_cons] at hle ⊢
      omega
    rw [List.append_assoc, List.cons_append, hskip,
      remainingItems_comma hclosing.ne_comma hitem hcomma hlt, ih hbs]
    rfl

/-- Pieces with commas between them are read up to the closing mark. -/
theorem items_eq_ok_iff (hread : Agrees read spells) (hclosing : IsClosing closing) {a c : α}
    {s rest : List Char} :
    items closing (eachBy read put) a s = .ok (c, rest) ↔
      ∃ inner bs, Listed spells inner bs ∧ s = inner ++ closing :: rest ∧ c = bs.foldl put a := by
  constructor
  · intro h
    rw [items] at h
    split at h
    next => exact absurd h (by simp)
    next d t hskip =>
      obtain ⟨-, spaces, hspaces, rfl⟩ := skipSpace_eq_cons_iff.1 hskip
      split at h
      next hd =>
        obtain ⟨rfl, rfl⟩ := Prod.mk.inj (Except.ok.inj h)
        exact ⟨spaces, [], .empty hspaces, by rw [hd], rfl⟩
      next =>
        obtain ⟨inner, bs, hinner, -, hs, hc⟩ := remainingItems_sound hread h
        exact ⟨_, bs, hinner.spaces_append hspaces, by rw [hs, List.append_assoc], hc⟩
  · rintro ⟨inner, bs, hinner, rfl, rfl⟩
    by_cases hne : bs = []
    · -- Without a piece there is nothing but white space.
      cases hinner with
      | empty hspaces =>
        rw [items, skipSpace_append_cons hspaces hclosing.isSpace]
        dsimp only
        rw [if_pos rfl]
        rfl
      | last => exact absurd hne (by simp)
      | cons => exact absurd hne (by simp)
    · have hrest : remainingItems closing (eachBy read put) a
          (skipSpace (inner ++ closing :: rest)) = .ok (bs.foldl put a, rest) :=
        remainingItems_complete hread hclosing hinner hne a rest
      obtain ⟨d, u, hskip, hd⟩ := hread.exists_skipSpace_eq hclosing hinner hne (closing :: rest)
      rw [items_of_ne hskip hd, hrest]

end

/-! ## Members -/

theorem colon_eq_ok_iff {s rest : List Char} :
    colon s = .ok rest ↔ ∃ spaces, IsSpaces spaces ∧ s = spaces ++ ':' :: rest := by
  constructor
  · intro h
    rw [colon.eq_def] at h
    split at h
    next => exact absurd h (by simp)
    next c t hskip =>
      obtain ⟨-, spaces, hspaces, rfl⟩ := skipSpace_eq_cons_iff.1 hskip
      split at h
      next hc => exact ⟨spaces, hspaces, by rw [hc, Except.ok.inj h]⟩
      next => exact absurd h (by simp)
  · rintro ⟨spaces, hspaces, rfl⟩
    rw [colon, skipSpace_append_cons hspaces (by decide)]
    rfl

/-- A member of an object: its name and, behind a colon, its value. -/
def pair (read : Reader Json) : Reader (String × Json) := fun s => do
  let (name, s) ← quoteThen string s
  let s ← colon s
  let (j, s) ← read s
  return ((name, j), s)

/-- The reader does not mind white space in front. -/
def SkipsSpace {α : Type} (read : Reader α) : Prop :=
  ∀ {spaces : List Char} (s : List Char), IsSpaces spaces → read (spaces ++ s) = read s

section

variable {read : Reader Json} {spells : List Char → Json → Prop}

/-- A member read in the light of the ones before it, in one piece. -/
theorem eachBy_pair {α : Type} (read : Reader Json) (put : α → String × Json → α) :
    eachBy (pair read) put = fun a s => do
      let (name, s) ← quoteThen string s
      let s ← colon s
      let (j, s) ← read s
      return (put a (name, j), s) := by
  funext a s
  simp only [eachBy, pair, bind_assoc, pure_bind]

theorem pair_eq_ok_iff {s rest : List Char} {m : String × Json} :
    pair read s = .ok (m, rest) ↔
      ∃ t u, quoteThen string s = .ok (m.1, t) ∧ colon t = .ok u ∧ read u = .ok (m.2, rest) := by
  rw [pair, bind_eq_ok_iff]
  constructor
  · rintro ⟨⟨name, t⟩, hname, h⟩
    obtain ⟨u, hcolon, h⟩ := bind_eq_ok_iff.1 h
    obtain ⟨⟨j, v⟩, hvalue, h⟩ := bind_eq_ok_iff.1 h
    obtain ⟨rfl, rfl⟩ := Prod.mk.inj (Except.ok.inj h)
    exact ⟨t, u, hname, hcolon, hvalue⟩
  · rintro ⟨t, u, hname, hcolon, hvalue⟩
    refine ⟨(m.1, t), hname, bind_eq_ok_iff.2 ⟨u, hcolon, ?_⟩⟩
    exact bind_eq_ok_iff.2 ⟨(m.2, rest), hvalue, rfl⟩

theorem agrees_pair (hread : Agrees read spells) (hskips : SkipsSpace read) :
    Agrees (pair read) (SpellsMember spells) where
  sound {s rest m} h := by
    obtain ⟨t, u, hname, hcolon, hvalue⟩ := pair_eq_ok_iff.1 h
    obtain ⟨key, hkey, rfl⟩ := quoteThen_string_sound hname
    obtain ⟨between, hbetween, rfl⟩ := colon_eq_ok_iff.1 hcolon
    obtain ⟨before, core, hbefore, hcore, rfl⟩ := hread.sound hvalue
    exact ⟨[], _, isSpaces_nil, .intro hkey hbetween hbefore hcore, by simp⟩
  complete {s rest m} h hrest := by
    cases h with
    | @intro key between before core name j hkey hbetween hbefore hcore =>
      refine pair_eq_ok_iff.2 ⟨between ++ ':' :: (before ++ core ++ rest), before ++ core ++ rest,
        ?_, colon_eq_ok_iff.2 ⟨between, hbetween, rfl⟩, ?_⟩
      · have hname := quoteThen_string_complete hkey (between ++ ':' :: (before ++ core ++ rest))
        simpa using hname
      · rw [List.append_assoc, hskips _ hbefore]
        exact hread.complete hcore hrest
  head h := by
    cases h with
    | intro hkey =>
      obtain ⟨u, rfl⟩ := exists_eq_quote_of_spellsString hkey
      exact ⟨'"', _, rfl, by decide, by decide, by decide⟩

end

/-! ## Values -/

/-- A scalar begins with such a character. -/
def startsScalar (c : Char) : Bool :=
  c == 'n' || c == 't' || c == 'f' || c == '"' || startsNumber c

theorem exists_eq_cons_of_spellsScalar {t : List Char} {j : Json} (h : SpellsScalar t j) :
    ∃ c u, t = c :: u ∧ startsScalar c = true := by
  cases h with
  | null => exact ⟨_, _, rfl, by decide⟩
  | true => exact ⟨_, _, rfl, by decide⟩
  | false => exact ⟨_, _, rfl, by decide⟩
  | number hn =>
    obtain ⟨c, u, rfl, hc⟩ := exists_eq_cons_of_spellsNumber hn
    exact ⟨c, u, rfl, by simp [startsScalar, hc]⟩
  | string hs =>
    obtain ⟨u, rfl⟩ := exists_eq_quote_of_spellsString hs
    exact ⟨'"', u, rfl, by decide⟩

/-- A value begins with such a character. -/
def startsValue (c : Char) : Bool :=
  startsScalar c || c == '[' || c == '\x7b'

theorem startsValue_of_startsScalar {c : Char} (h : startsScalar c = true) :
    startsValue c = true := by
  simp [startsValue, h]

theorem isSpace_of_startsValue {c : Char} (h : startsValue c = true) : isSpace c = false := by
  rw [Bool.eq_false_iff]
  intro hspace
  simp only [isSpace, Bool.or_eq_true, beq_iff_eq] at hspace
  rcases hspace with ((rfl | rfl) | rfl) | rfl <;> exact absurd h (by decide)

theorem ne_of_startsScalar {c d : Char} (h : startsScalar c = true) (hd : startsScalar d = false) :
    c ≠ d := by
  rintro rfl
  exact absurd (h.symm.trans hd) (by decide)

theorem ne_of_startsValue {c d : Char} (h : startsValue c = true) (hd : startsValue d = false) :
    c ≠ d := by
  rintro rfl
  exact absurd (h.symm.trans hd) (by decide)

theorem exists_eq_cons_of_spells {budget : Nat} {t : List Char} {j : Json}
    (h : Spells budget t j) : ∃ c u, t = c :: u ∧ startsValue c = true := by
  have hscalar : SpellsScalar t j → ∃ c u, t = c :: u ∧ startsValue c = true := by
    intro h
    obtain ⟨c, u, ht, hc⟩ := exists_eq_cons_of_spellsScalar h
    exact ⟨c, u, ht, startsValue_of_startsScalar hc⟩
  cases budget with
  | zero => exact hscalar h
  | succ budget =>
    rcases h with h | ⟨inner, js, -, rfl, -⟩ | ⟨ms, ⟨inner, -, rfl⟩, -⟩
    · exact hscalar h
    · exact ⟨'[', _, rfl, by decide⟩
    · exact ⟨'\x7b', _, rfl, by decide⟩

theorem skipsSpace_value (budget : Nat) : SkipsSpace (value budget) := by
  intro spaces s hspaces
  cases budget with
  | zero => rw [value, value, skipSpace_append hspaces]
  | succ budget => rw [value, value, skipSpace_append hspaces]

/-- The items of an array are gathered from the last to the first. -/
def itemsOf (budget : Nat) : Reader (List Json) :=
  items ']' (eachBy (value budget) fun before j => j :: before) []

/-- The members of an object are set one after the other. -/
def membersOf (budget : Nat) : Reader (Members none) :=
  items '\x7d' (eachBy (pair (value budget)) fun before m => before.set m.1 m.2) .nil

theorem value_succ (budget : Nat) (s : List Char) :
    value (budget + 1) s =
      match skipSpace s with
      | [] => .error .truncated
      | c :: rest =>
        if c = '[' then do
          let (js, rest) ← itemsOf budget rest
          return (.array js.reverse, rest)
        else if c = '\x7b' then do
          let (ms, rest) ← membersOf budget rest
          return (.ordered ms, rest)
        else scalar (c :: rest) := by
  rw [value, itemsOf, membersOf, eachBy_pair]
  rfl

theorem itemsOf_eq_ok_iff {budget : Nat} (hvalue : Agrees (value budget) (Spells budget))
    {s rest : List Char} {js : List Json} :
    itemsOf budget s = .ok (js, rest) ↔
      ∃ inner, Listed (Spells budget) inner js.reverse ∧ s = inner ++ ']' :: rest := by
  rw [itemsOf, items_eq_ok_iff hvalue (.inl rfl)]
  constructor
  · rintro ⟨inner, items, hinner, hs, rfl⟩
    refine ⟨inner, ?_, hs⟩
    rwa [List.foldl_flip_cons_eq_append', List.append_nil, List.reverse_reverse]
  · rintro ⟨inner, hinner, hs⟩
    refine ⟨inner, js.reverse, hinner, hs, ?_⟩
    rw [List.foldl_flip_cons_eq_append', List.append_nil, List.reverse_reverse]

theorem membersOf_eq_ok_iff {budget : Nat} (hvalue : Agrees (value budget) (Spells budget))
    {s rest : List Char} {ms : Members none} :
    membersOf budget s = .ok (ms, rest) ↔
      ∃ inner members, Listed (SpellsMember (Spells budget)) inner members ∧
        s = inner ++ '\x7d' :: rest ∧ ms = .ofList members :=
  items_eq_ok_iff (agrees_pair hvalue (skipsSpace_value budget)) (.inr rfl)

theorem value_zero_sound {s rest : List Char} {j : Json} (h : value 0 s = .ok (j, rest)) :
    ∃ before core, IsSpaces before ∧ Spells 0 core j ∧ s = before ++ (core ++ rest) := by
  rw [value] at h
  split at h
  next => exact absurd h (by simp)
  next c t hskip =>
    obtain ⟨-, spaces, hspaces, rfl⟩ := skipSpace_eq_cons_iff.1 hskip
    split at h
    next => exact absurd h (by simp)
    next =>
      obtain ⟨u, hu, ht⟩ := scalar_sound h
      exact ⟨spaces, u, hspaces, hu, by rw [ht]⟩

theorem value_succ_sound {budget : Nat} (hvalue : Agrees (value budget) (Spells budget))
    {s rest : List Char} {j : Json} (h : value (budget + 1) s = .ok (j, rest)) :
    ∃ before core, IsSpaces before ∧ Spells (budget + 1) core j ∧
      s = before ++ (core ++ rest) := by
  rw [value_succ] at h
  split at h
  next => exact absurd h (by simp)
  next c t hskip =>
    obtain ⟨-, spaces, hspaces, rfl⟩ := skipSpace_eq_cons_iff.1 hskip
    -- The first character tells an array and an object from a scalar.
    split at h
    next hc =>
      obtain ⟨⟨js, u⟩, hitems, h⟩ := bind_eq_ok_iff.1 h
      obtain ⟨rfl, rfl⟩ := Prod.mk.inj (Except.ok.inj h)
      obtain ⟨inner, hinner, rfl⟩ := (itemsOf_eq_ok_iff hvalue).1 hitems
      exact ⟨spaces, _, hspaces, .inr (.inl ⟨inner, _, hinner, rfl, rfl⟩), by simp [hc]⟩
    split at h
    next hc =>
      obtain ⟨⟨ms, u⟩, hmembers, h⟩ := bind_eq_ok_iff.1 h
      obtain ⟨rfl, rfl⟩ := Prod.mk.inj (Except.ok.inj h)
      obtain ⟨inner, members, hinner, rfl, rfl⟩ := (membersOf_eq_ok_iff hvalue).1 hmembers
      exact ⟨spaces, _, hspaces, .inr (.inr ⟨members, ⟨inner, hinner, rfl⟩, rfl⟩), by simp [hc]⟩
    next =>
      obtain ⟨u, hu, ht⟩ := scalar_sound h
      exact ⟨spaces, u, hspaces, .inl hu, by rw [ht]⟩

theorem value_complete_of_scalar (budget : Nat) {core rest : List Char} {j : Json}
    (h : SpellsScalar core j) (hrest : EndsNumeral rest) :
    value budget (core ++ rest) = .ok (j, rest) := by
  obtain ⟨c, t, rfl, hc⟩ := exists_eq_cons_of_spellsScalar h
  have hscalar := scalar_complete h hrest
  have hspace := isSpace_of_startsValue (startsValue_of_startsScalar hc)
  have harray : c ≠ '[' := ne_of_startsScalar hc (by decide)
  have hobject : c ≠ '\x7b' := ne_of_startsScalar hc (by decide)
  rw [List.cons_append] at hscalar ⊢
  cases budget with
  | zero =>
    rw [value, skipSpace_cons hspace]
    dsimp only
    rw [if_neg (not_or.2 ⟨harray, hobject⟩), hscalar]
  | succ budget =>
    rw [value_succ, skipSpace_cons hspace]
    dsimp only
    rw [if_neg harray, if_neg hobject, hscalar]

theorem value_succ_complete {budget : Nat} (hvalue : Agrees (value budget) (Spells budget))
    {core rest : List Char} {j : Json} (h : Spells (budget + 1) core j)
    (hrest : EndsNumeral rest) : value (budget + 1) (core ++ rest) = .ok (j, rest) := by
  rcases h with h | ⟨inner, js, hinner, rfl, rfl⟩ | ⟨members, ⟨inner, hinner, rfl⟩, rfl⟩
  · exact value_complete_of_scalar _ h hrest
  · have hitems : itemsOf budget (inner ++ ']' :: rest) = .ok (js.reverse, rest) :=
      (itemsOf_eq_ok_iff hvalue).2 ⟨inner, by rwa [List.reverse_reverse], rfl⟩
    rw [List.cons_append, value_succ, skipSpace_cons (by decide)]
    dsimp only
    rw [if_pos rfl, List.append_assoc, List.singleton_append, hitems]
    exact congrArg (fun items => Except.ok (Json.array items, rest)) (List.reverse_reverse js)
  · have hmembers : membersOf budget (inner ++ '\x7d' :: rest) = .ok (.ofList members, rest) :=
      (membersOf_eq_ok_iff hvalue).2 ⟨inner, members, hinner, rfl, rfl⟩
    rw [List.cons_append, value_succ, skipSpace_cons (by decide)]
    dsimp only
    rw [if_neg (by decide), if_pos rfl, List.append_assoc, List.singleton_append, hmembers]
    rfl

theorem head_of_spells {budget : Nat} {core : List Char} {j : Json} (h : Spells budget core j) :
    ∃ c t, core = c :: t ∧ isSpace c = false ∧ c ≠ ']' ∧ c ≠ '\x7d' := by
  obtain ⟨c, t, rfl, hc⟩ := exists_eq_cons_of_spells h
  exact ⟨c, t, rfl, isSpace_of_startsValue hc, ne_of_startsValue hc (by decide),
    ne_of_startsValue hc (by decide)⟩

/-- By induction on how deep containers may nest, values are read as the grammar has them. -/
theorem agrees_value (budget : Nat) : Agrees (value budget) (Spells budget) := by
  induction budget with
  | zero => exact ⟨value_zero_sound, value_complete_of_scalar 0, head_of_spells⟩
  | succ budget ih => exact ⟨value_succ_sound ih, value_succ_complete ih, head_of_spells⟩

theorem agrees_member (budget : Nat) :
    Agrees (pair (value budget)) (SpellsMember (Spells budget)) :=
  agrees_pair (agrees_value budget) (skipsSpace_value budget)

/-! ## Whole texts -/

/-- A whole text is read if it is a text of the grammar with white space around it. -/
theorem whole_eq_ok_iff {α : Type} {read : Reader α} {spells : List Char → α → Prop}
    (hread : Agrees read spells) (hskips : SkipsSpace read) {s : List Char} {a : α} :
    whole read s = .ok a ↔ Padded spells s a := by
  rw [whole, bind_eq_ok_iff]
  constructor
  · rintro ⟨⟨b, rest⟩, hs, h⟩
    dsimp only at h
    split at h
    next hrest =>
      obtain rfl := Except.ok.inj h
      obtain ⟨before, core, hbefore, hcore, rfl⟩ := hread.sound hs
      obtain ⟨after, hafter, hskip⟩ := exists_eq_append_skipSpace rest
      rw [hrest, List.append_nil] at hskip
      rw [hskip, ← List.append_assoc]
      exact .intro hbefore hcore hafter
    next => exact absurd h (by simp)
  · rintro (@⟨before, core, after, _, hbefore, hcore, hafter⟩)
    have hends : EndsNumeral after := by
      rw [← List.append_nil after]
      exact endsNumeral_append hafter endsNumeral_nil
    refine ⟨(a, after), ?_, ?_⟩
    · rw [List.append_assoc, hskips _ hbefore]
      exact hread.complete hcore hends
    · have hnil : skipSpace after = [] := by
        rw [← List.append_nil after, skipSpace_append hafter]
        rfl
      dsimp only
      rw [if_pos hnil]
      rfl

end Reader

/-- The text of a value is read as the grammar has it. -/
theorem ofText_eq_ok_iff {s : List Char} {j : Json} :
    ofText s = .ok j ↔ Padded (Spells Reader.nestingLimit) s j :=
  Reader.whole_eq_ok_iff (Reader.agrees_value _) (Reader.skipsSpace_value _)

end FilterTemplate.Json
