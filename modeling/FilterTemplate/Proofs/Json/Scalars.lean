/-
  FilterTemplate.Proofs.Json.Scalars

  Readers of scalars against the grammar. A reader agrees with a grammar if it
  takes off the front of a text what the grammar has and gives what that stands
  for, whatever follows. Only a numeral has no end of its own: what follows must
  not go on with it.
-/
import FilterTemplate.Json.Grammar

namespace FilterTemplate.Json

namespace Reader

/-! ## Agreement -/

theorem bind_eq_ok_iff {α β : Type} {x : Except ReadError α} {f : α → Except ReadError β}
    {b : β} : (x >>= f) = .ok b ↔ ∃ a, x = .ok a ∧ f a = .ok b := by
  cases x with
  | error e =>
    constructor
    · intro h
      cases h
    · rintro ⟨a, ha, -⟩
      cases ha
  | ok a =>
    constructor
    · exact fun h => ⟨a, rfl, h⟩
    · rintro ⟨a', ha, h⟩
      cases ha
      exact h

/-- A numeral goes on with such a character. -/
def continuesNumeral (c : Char) : Bool :=
  c.isDigit || c == '.' || c == 'e' || c == 'E'

/-- No numeral in front of the text goes on into it. -/
def EndsNumeral (s : List Char) : Prop :=
  ∀ c ∈ s.head?, continuesNumeral c = false

theorem endsNumeral_nil : EndsNumeral [] := by
  intro c hc
  cases hc

theorem endsNumeral_cons {c : Char} {s : List Char} (h : continuesNumeral c = false) :
    EndsNumeral (c :: s) := by
  intro d hd
  cases hd
  exact h

/-- The reader takes the texts of a grammar, perhaps with white space before
them. Such a text begins with a character that closes nothing and is no space. -/
structure Agrees {α : Type} (read : Reader α) (spells : List Char → α → Prop) : Prop where
  sound : ∀ {s rest a}, read s = .ok (a, rest) →
    ∃ before core, IsSpaces before ∧ spells core a ∧ s = before ++ (core ++ rest)
  complete : ∀ {core rest a}, spells core a → EndsNumeral rest → read (core ++ rest) = .ok (a, rest)
  head : ∀ {core a}, spells core a →
    ∃ c t, core = c :: t ∧ isSpace c = false ∧ c ≠ ']' ∧ c ≠ '\x7d'

/-! ## White space -/

theorem isSpaces_nil : IsSpaces [] :=
  fun _ hc => absurd hc (by simp)

theorem isSpaces_singleton {c : Char} (h : isSpace c = true) : IsSpaces [c] :=
  List.forall_mem_singleton.2 h

theorem exists_eq_append_skipSpace (s : List Char) :
    ∃ spaces, IsSpaces spaces ∧ s = spaces ++ skipSpace s :=
  ⟨s.takeWhile isSpace, List.all_eq_true.1 List.all_takeWhile, List.takeWhile_append_dropWhile.symm⟩

theorem skipSpace_append {spaces : List Char} (h : IsSpaces spaces) (s : List Char) :
    skipSpace (spaces ++ s) = skipSpace s :=
  List.dropWhile_append_of_pos h

theorem skipSpace_cons {c : Char} (h : isSpace c = false) (s : List Char) :
    skipSpace (c :: s) = c :: s :=
  List.dropWhile_cons_of_neg (by simp [h])

/-- A character that is no space is reached through the spaces before it. -/
theorem skipSpace_append_cons {spaces : List Char} (h : IsSpaces spaces) {c : Char}
    (hc : isSpace c = false) (s : List Char) : skipSpace (spaces ++ c :: s) = c :: s := by
  rw [skipSpace_append h, skipSpace_cons hc]

theorem isSpace_head_skipSpace {s t : List Char} {c : Char} (h : skipSpace s = c :: t) :
    isSpace c = false := by
  have hhead := List.head?_dropWhile_not isSpace s
  rw [show s.dropWhile isSpace = c :: t from h] at hhead
  simpa using hhead

theorem continuesNumeral_of_isSpace {c : Char} (h : isSpace c = true) :
    continuesNumeral c = false := by
  simp only [isSpace, Bool.or_eq_true, beq_iff_eq] at h
  rcases h with ((rfl | rfl) | rfl) | rfl <;> decide

theorem endsNumeral_append {spaces s : List Char} (h : IsSpaces spaces) (hs : EndsNumeral s) :
    EndsNumeral (spaces ++ s) := by
  cases spaces with
  | nil => exact hs
  | cons c spaces => exact endsNumeral_cons (continuesNumeral_of_isSpace (h c List.mem_cons_self))

/-- Only the ends of white space are given, so a text splits in one way where it begins. -/
theorem skipSpace_eq_cons_iff {s t : List Char} {c : Char} :
    skipSpace s = c :: t ↔
      isSpace c = false ∧ ∃ spaces, IsSpaces spaces ∧ s = spaces ++ c :: t := by
  constructor
  · intro h
    obtain ⟨spaces, hspaces, hs⟩ := exists_eq_append_skipSpace s
    exact ⟨isSpace_head_skipSpace h, spaces, hspaces, h ▸ hs⟩
  · rintro ⟨hc, spaces, hspaces, rfl⟩
    exact skipSpace_append_cons hspaces hc t

/-! ## Keywords -/

theorem keyword_eq_ok_iff {expected s rest : List Char} :
    keyword expected s = .ok rest ↔ s = expected ++ rest := by
  induction expected generalizing s with
  | nil => exact ⟨fun h => Except.ok.inj h, fun h => congrArg _ h⟩
  | cons e expected ih =>
    cases s with
    | nil => simp [keyword]
    | cons c s =>
      by_cases hc : c = e
      · rw [keyword, if_pos hc, ih, hc, List.cons_append, List.cons_inj_right]
      · simp [keyword, hc]

/-- A word that stands for `a`. -/
theorem keyword_then_eq_ok_iff {α : Type} {word s rest : List Char} {a b : α} :
    (do let t ← keyword word s; return (a, t)) = Except.ok (b, rest) ↔
      b = a ∧ s = word ++ rest := by
  rw [bind_eq_ok_iff, ← keyword_eq_ok_iff]
  constructor
  · rintro ⟨t, ht, h⟩
    obtain ⟨rfl, rfl⟩ := Prod.mk.inj (Except.ok.inj h)
    exact ⟨rfl, ht⟩
  · rintro ⟨rfl, hs⟩
    exact ⟨rest, hs, rfl⟩

/-! ## Digits -/

/-- The text does not begin with a digit. -/
def NoDigit (s : List Char) : Prop :=
  ∀ c ∈ s.head?, c.isDigit = false

theorem noDigit_cons {c : Char} {s : List Char} (h : c.isDigit = false) : NoDigit (c :: s) := by
  intro d hd
  cases hd
  exact h

theorem noDigit_of_endsNumeral {s : List Char} (h : EndsNumeral s) : NoDigit s := by
  intro c hc
  have hcontinues := h c hc
  simp only [continuesNumeral, Bool.or_eq_false_iff] at hcontinues
  exact hcontinues.1.1.1

theorem digits_eq_ok_iff {s ds rest : List Char} :
    digits s = .ok (ds, rest) ↔ IsDigits ds ∧ s = ds ++ rest ∧ NoDigit rest := by
  constructor
  · intro h
    cases s with
    | nil => exact absurd h (by simp [digits])
    | cons c s =>
      rw [digits] at h
      split at h
      next hc =>
        obtain ⟨rfl, rfl⟩ := Prod.mk.inj (Except.ok.inj h)
        refine ⟨⟨List.cons_ne_nil _ _, List.forall_mem_cons.2 ⟨hc, ?_⟩⟩, ?_, ?_⟩
        · exact List.all_eq_true.1 List.all_takeWhile
        · rw [List.cons_append, List.takeWhile_append_dropWhile]
        · intro d hd
          have hhead := List.head?_dropWhile_not Char.isDigit s
          rw [Option.mem_def.1 hd] at hhead
          simpa using hhead
      next => exact absurd h (by simp)
  · rintro ⟨⟨hne, hdigits⟩, rfl, hrest⟩
    cases ds with
    | nil => exact absurd rfl hne
    | cons c ds =>
      rw [List.forall_mem_cons] at hdigits
      rw [List.cons_append, digits, if_pos hdigits.1, List.takeWhile_append_of_pos hdigits.2,
        List.dropWhile_append_of_pos hdigits.2]
      -- The digits end where the rest begins.
      cases rest with
      | nil => simp
      | cons d rest =>
        have hd : d.isDigit = false := hrest d rfl
        rw [List.takeWhile_cons_of_neg (by simp [hd]), List.dropWhile_cons_of_neg (by simp [hd]),
          List.append_nil]

theorem wholePart_eq_ok_iff {s ds rest : List Char} :
    wholePart s = .ok (ds, rest) ↔ IsWhole ds ∧ s = ds ++ rest ∧ NoDigit rest := by
  constructor
  · intro h
    rw [wholePart.eq_def] at h
    split at h
    next c t =>
      split at h
      next => exact absurd h (by simp)
      next hc =>
        obtain ⟨rfl, rfl⟩ := Prod.mk.inj (Except.ok.inj h)
        exact ⟨⟨⟨by simp, List.forall_mem_singleton.2 rfl⟩, fun _ => rfl⟩, rfl,
          noDigit_cons (by simpa using hc)⟩
    next hone =>
      obtain ⟨hds, rfl, hrest⟩ := digits_eq_ok_iff.1 h
      refine ⟨⟨hds, fun hzero => ?_⟩, rfl, hrest⟩
      -- A zero with digits behind it is not read here.
      cases ds with
      | nil => exact absurd rfl hds.1
      | cons c ds =>
        rw [List.head?_cons, Option.some.injEq] at hzero
        cases ds with
        | nil => rw [hzero]
        | cons d ds => exact absurd (by rw [hzero]; rfl) (hone d (ds ++ rest))
  · rintro ⟨⟨hds, hwhole⟩, rfl, hrest⟩
    rw [wholePart.eq_def]
    split
    next c t heq =>
      have hzero : ds.head? = some '0' := by
        cases ds with
        | nil => exact absurd rfl hds.1
        | cons d ds => rw [(List.cons.inj heq).1, List.head?_cons]
      rw [hwhole hzero] at heq ⊢
      have hbehind : rest = c :: t := (List.cons.inj heq).2
      have hc : c.isDigit = false := hrest c (by rw [hbehind]; rfl)
      rw [hbehind, if_neg (by simp [hc])]
    next => exact digits_eq_ok_iff.2 ⟨hds, rfl, hrest⟩

/-! ## Numerals -/

/-- No numeral goes on into the text with more digits or a fraction. -/
def NoFraction (s : List Char) : Prop :=
  ∀ c ∈ s.head?, c.isDigit = false ∧ c ≠ '.'

theorem noFraction_of_endsNumeral {s : List Char} (h : EndsNumeral s) : NoFraction s := by
  intro c hc
  have hcontinues := h c hc
  simp only [continuesNumeral, Bool.or_eq_false_iff, beq_eq_false_iff_ne] at hcontinues
  exact hcontinues.1.1

theorem noDigit_of_noFraction {s : List Char} (h : NoFraction s) : NoDigit s :=
  fun c hc => (h c hc).1

theorem fractionPart_sound {s rest : List Char} {f : Option (List Char)}
    (h : fractionPart s = .ok (f, rest)) : ∃ t, SpellsFraction t f ∧ s = t ++ rest := by
  rw [fractionPart.eq_def] at h
  split at h
  next s =>
    obtain ⟨⟨ds, r⟩, hds, hrest⟩ := bind_eq_ok_iff.1 h
    obtain ⟨rfl, rfl⟩ := Prod.mk.inj (Except.ok.inj hrest)
    obtain ⟨hdigits, rfl, -⟩ := digits_eq_ok_iff.1 hds
    exact ⟨_, .some hdigits, rfl⟩
  next =>
    obtain ⟨rfl, rfl⟩ := Prod.mk.inj (Except.ok.inj h)
    exact ⟨[], .none, rfl⟩

theorem fractionPart_complete {t rest : List Char} {f : Option (List Char)}
    (h : SpellsFraction t f) (hrest : NoFraction rest) :
    fractionPart (t ++ rest) = .ok (f, rest) := by
  cases h with
  | none =>
    -- Nothing is there, and what follows does not begin with a point.
    rw [List.nil_append, fractionPart.eq_def]
    split
    next s => exact absurd rfl (hrest '.' rfl).2
    next => rfl
  | some hdigits =>
    have hread := digits_eq_ok_iff.2 ⟨hdigits, rfl, noDigit_of_noFraction hrest⟩
    rw [List.cons_append, fractionPart, hread]
    rfl

theorem exponentPart_sound {s rest : List Char} {e : Option Int}
    (h : exponentPart s = .ok (e, rest)) : ∃ t, SpellsExponent t e ∧ s = t ++ rest := by
  cases s with
  | nil =>
    obtain ⟨rfl, rfl⟩ := Prod.mk.inj (Except.ok.inj h)
    exact ⟨[], .none, rfl⟩
  | cons mark s =>
    rw [exponentPart.eq_def] at h
    dsimp only at h
    split at h
    next hmark =>
      split at h
      all_goals
        obtain ⟨⟨ds, r⟩, hds, hrest⟩ := bind_eq_ok_iff.1 h
        obtain ⟨rfl, rfl⟩ := Prod.mk.inj (Except.ok.inj hrest)
        obtain ⟨hdigits, rfl, -⟩ := digits_eq_ok_iff.1 hds
      · exact ⟨_, .minus hmark hdigits, rfl⟩
      · exact ⟨_, .plus hmark hdigits, rfl⟩
      · exact ⟨_, .unsigned hmark hdigits, rfl⟩
    next =>
      obtain ⟨rfl, rfl⟩ := Prod.mk.inj (Except.ok.inj h)
      exact ⟨[], .none, rfl⟩

theorem exponentPart_complete {t rest : List Char} {e : Option Int}
    (h : SpellsExponent t e) (hrest : EndsNumeral rest) :
    exponentPart (t ++ rest) = .ok (e, rest) := by
  have hread : ∀ {ds}, IsDigits ds → digits (ds ++ rest) = .ok (ds, rest) := fun hds =>
    digits_eq_ok_iff.2 ⟨hds, rfl, noDigit_of_endsNumeral hrest⟩
  cases h with
  | none =>
    cases rest with
    | nil => rfl
    | cons c rest =>
      have hc := hrest c rfl
      simp only [continuesNumeral, Bool.or_eq_false_iff, beq_eq_false_iff_ne] at hc
      rw [List.nil_append, exponentPart.eq_def]
      dsimp only
      rw [if_neg (by simp [hc.1.2, hc.2])]
  | @unsigned mark ds hmark hdigits =>
    obtain ⟨c, ds', rfl⟩ := List.exists_cons_of_ne_nil hdigits.1
    have hc : c.isDigit = true := hdigits.2 c List.mem_cons_self
    rw [List.cons_append, exponentPart.eq_def]
    dsimp only
    rw [if_pos hmark]
    -- The first digit is no sign.
    split
    next heq =>
      rw [(List.cons.inj heq).1] at hc
      exact absurd hc (by decide)
    next heq =>
      rw [(List.cons.inj heq).1] at hc
      exact absurd hc (by decide)
    next =>
      rw [hread hdigits]
      rfl
  | plus hmark hdigits =>
    rw [List.cons_append, List.cons_append, exponentPart, if_pos hmark]
    dsimp only
    rw [hread hdigits]
    rfl
  | minus hmark hdigits =>
    rw [List.cons_append, List.cons_append, exponentPart, if_pos hmark]
    dsimp only
    rw [hread hdigits]
    rfl

theorem noFraction_exponent_append {t rest : List Char} {e : Option Int}
    (h : SpellsExponent t e) (hrest : EndsNumeral rest) : NoFraction (t ++ rest) := by
  have hmarks : ∀ {mark : Char} {s : List Char}, mark = 'e' ∨ mark = 'E' →
      NoFraction (mark :: s) := by
    rintro mark s hmark c ⟨⟩
    rcases hmark with rfl | rfl <;> decide
  cases h with
  | none => exact noFraction_of_endsNumeral hrest
  | unsigned hmark => exact hmarks hmark
  | plus hmark => exact hmarks hmark
  | minus hmark => exact hmarks hmark

theorem noDigit_fraction_append {t rest : List Char} {f : Option (List Char)}
    (h : SpellsFraction t f) (hrest : NoFraction rest) : NoDigit (t ++ rest) := by
  cases h with
  | none => exact noDigit_of_noFraction hrest
  | some => exact noDigit_cons (by decide)

theorem unsignedNumeral_sound {negative : Bool} {s rest : List Char} {n : Numeral}
    (h : unsignedNumeral negative s = .ok (n, rest)) :
    ∃ t, SpellsUnsigned negative t n ∧ s = t ++ rest := by
  obtain ⟨⟨whole, s₁⟩, hwhole, h⟩ := bind_eq_ok_iff.1 h
  obtain ⟨⟨f, s₂⟩, hfraction, h⟩ := bind_eq_ok_iff.1 h
  obtain ⟨⟨e, s₃⟩, hexponent, h⟩ := bind_eq_ok_iff.1 h
  obtain ⟨rfl, rfl⟩ := Prod.mk.inj (Except.ok.inj h)
  obtain ⟨hw, rfl, -⟩ := wholePart_eq_ok_iff.1 hwhole
  obtain ⟨fraction, hf, rfl⟩ := fractionPart_sound hfraction
  obtain ⟨exponent, he, rfl⟩ := exponentPart_sound hexponent
  exact ⟨_, .intro hw hf he, by simp only [List.append_assoc]⟩

theorem unsignedNumeral_complete {negative : Bool} {t rest : List Char} {n : Numeral}
    (h : SpellsUnsigned negative t n) (hrest : EndsNumeral rest) :
    unsignedNumeral negative (t ++ rest) = .ok (n, rest) := by
  cases h with
  | @intro whole fraction exponent f e hw hf he =>
    -- Each part ends where the next one or the rest of the text begins.
    have hbehind := noFraction_exponent_append he hrest
    have hwhole : wholePart (whole ++ (fraction ++ (exponent ++ rest))) =
        .ok (whole, fraction ++ (exponent ++ rest)) :=
      wholePart_eq_ok_iff.2 ⟨hw, rfl, noDigit_fraction_append hf hbehind⟩
    have hfraction := fractionPart_complete hf hbehind
    have hexponent := exponentPart_complete he hrest
    simp only [unsignedNumeral, List.append_assoc, hwhole, hfraction, hexponent, bind, Except.bind,
      pure, Except.pure]

theorem exists_eq_cons_of_spellsUnsigned {negative : Bool} {t : List Char} {n : Numeral}
    (h : SpellsUnsigned negative t n) : ∃ c u, t = c :: u ∧ c.isDigit = true := by
  cases h with
  | @intro whole fraction exponent f e hw =>
    obtain ⟨c, u, rfl⟩ := List.exists_cons_of_ne_nil hw.1.1
    exact ⟨c, _, rfl, hw.1.2 c List.mem_cons_self⟩

theorem numeral_sound {s rest : List Char} {n : Numeral} (h : numeral s = .ok (n, rest)) :
    ∃ t, SpellsNumeral t n ∧ s = t ++ rest := by
  rw [numeral.eq_def] at h
  split at h
  next s =>
    obtain ⟨t, ht, rfl⟩ := unsignedNumeral_sound h
    exact ⟨_, .negative ht, rfl⟩
  next =>
    obtain ⟨t, ht, rfl⟩ := unsignedNumeral_sound h
    exact ⟨t, .positive ht, rfl⟩

theorem numeral_complete {t rest : List Char} {n : Numeral} (h : SpellsNumeral t n)
    (hrest : EndsNumeral rest) : numeral (t ++ rest) = .ok (n, rest) := by
  cases h with
  | negative h => exact unsignedNumeral_complete h hrest
  | positive h =>
    rw [numeral.eq_def]
    split
    next s heq =>
      -- The first digit is no sign.
      obtain ⟨c, u, rfl, hc⟩ := exists_eq_cons_of_spellsUnsigned h
      rw [(List.cons.inj heq).1] at hc
      exact absurd hc (by decide)
    next => exact unsignedNumeral_complete h hrest

/-- A number begins with its sign or with a digit. -/
def startsNumber (c : Char) : Bool :=
  c == '-' || c.isDigit

theorem exists_eq_cons_of_spellsNumber {t : List Char} {n : Number} (h : SpellsNumber t n) :
    ∃ c u, t = c :: u ∧ startsNumber c = true := by
  obtain ⟨numeral, hnumeral, -⟩ := h
  cases hnumeral with
  | negative => exact ⟨'-', _, rfl, by decide⟩
  | positive h =>
    obtain ⟨c, u, rfl, hc⟩ := exists_eq_cons_of_spellsUnsigned h
    exact ⟨c, u, rfl, by simp [startsNumber, hc]⟩

theorem number_sound {s rest : List Char} {n : Number} (h : number s = .ok (n, rest)) :
    ∃ t, SpellsNumber t n ∧ s = t ++ rest := by
  obtain ⟨⟨m, s₁⟩, hnumeral, h⟩ := bind_eq_ok_iff.1 h
  dsimp only at h
  split at h
  next hnumber =>
    obtain ⟨rfl, rfl⟩ := Prod.mk.inj (Except.ok.inj h)
    obtain ⟨t, ht, rfl⟩ := numeral_sound hnumeral
    exact ⟨t, ⟨m, ht, hnumber⟩, rfl⟩
  next => exact absurd h (by simp)

theorem number_complete {t rest : List Char} {n : Number} (h : SpellsNumber t n)
    (hrest : EndsNumeral rest) : number (t ++ rest) = .ok (n, rest) := by
  obtain ⟨m, hm, hnumber⟩ := h
  simp only [number, numeral_complete hm hrest, hnumber, bind, Except.bind, pure, Except.pure]

/-! ## Strings -/

theorem prepend_eq_ok_iff {c : Char} {r : Except ReadError (List Char × List Char)}
    {cs rest : List Char} :
    prepend c r = .ok (cs, rest) ↔ ∃ ds, r = .ok (ds, rest) ∧ cs = c :: ds := by
  cases r with
  | error e => simp [prepend, Except.map]
  | ok p =>
    obtain ⟨ds, t⟩ := p
    simp only [prepend, Except.map, Except.ok.injEq, Prod.mk.injEq]
    constructor
    · rintro ⟨rfl, rfl⟩
      exact ⟨ds, ⟨rfl, rfl⟩, rfl⟩
    · rintro ⟨_, ⟨rfl, rfl⟩, rfl⟩
      exact ⟨rfl, rfl⟩

/-- A character that is spelled is read, and the string goes on behind it. -/
theorem stringTail_append {t : List Char} {c : Char} (h : SpellsChar t c) (s : List Char) :
    stringTail (t ++ s) = prepend c (stringTail s) := by
  have hshort : shortEscape? 'u' = none := rfl
  rw [stringTail.eq_def]
  cases h with
  | plain hquote hslash hcontrol => simp [hquote, hslash, hcontrol]
  | short he => simp [he]
  | unit hn hlow hhigh => simp [hshort, hn, hlow, hhigh]
  | pair hhigh hlow hn₁ hn₂ hn₃ => simp [hshort, hhigh, hlow, hn₁, hn₂, hn₃]

theorem stringTail_sound {s cs rest : List Char} (h : stringTail s = .ok (cs, rest)) :
    ∃ t, SpellsChars t cs ∧ s = t ++ '"' :: rest := by
  -- One character in front of what the induction gives.
  have hcons : ∀ {u s : List Char} {c : Char} {cs : List Char}, SpellsChar u c →
      prepend c (stringTail s) = .ok (cs, rest) →
      (∀ {cs}, stringTail s = .ok (cs, rest) → ∃ t, SpellsChars t cs ∧ s = t ++ '"' :: rest) →
      ∃ t, SpellsChars t cs ∧ u ++ s = t ++ '"' :: rest := by
    intro u s c cs hu h ih
    obtain ⟨ds, hds, rfl⟩ := prepend_eq_ok_iff.1 h
    obtain ⟨t, ht, rfl⟩ := ih hds
    exact ⟨u ++ t, .cons hu ht, by rw [List.append_assoc]⟩
  fun_induction stringTail s generalizing cs with
  | case2 s =>
    obtain ⟨rfl, rfl⟩ := Prod.mk.inj (Except.ok.inj h)
    exact ⟨[], .nil, rfl⟩
  | case4 e s c he _ ih => exact hcons (.short he) h ih
  | case10 h₁ h₂ h₃ h₄ high hhigh hlow hsurrogate l₁ l₂ l₃ l₄ s low hl hlow' _ _ ih =>
    exact hcons (.pair hhigh hl hlow hsurrogate hlow') h ih
  | case15 h₁ h₂ h₃ h₄ s n hn hlow hhigh _ _ ih => exact hcons (.unit hn hlow hhigh) h ih
  | case19 c s hquote hslash hcontrol ih => exact hcons (.plain hquote hslash hcontrol) h ih
  | _ => exact absurd h (by simp)

theorem stringTail_complete {t cs : List Char} (h : SpellsChars t cs) (rest : List Char) :
    stringTail (t ++ '"' :: rest) = .ok (cs, rest) := by
  induction h with
  | nil =>
    rw [List.nil_append, stringTail.eq_def]
    rfl
  | cons hc _ ih => rw [List.append_assoc, stringTail_append hc, ih]; rfl

theorem quoteThen_string_sound {s rest : List Char} {text : String}
    (h : quoteThen string s = .ok (text, rest)) : ∃ t, SpellsString t text ∧ s = t ++ rest := by
  cases s with
  | nil => exact absurd h (by simp [quoteThen])
  | cons c s =>
    rw [quoteThen] at h
    split at h
    next hc =>
      obtain ⟨⟨cs, s₁⟩, hcs, h⟩ := bind_eq_ok_iff.1 h
      obtain ⟨rfl, rfl⟩ := Prod.mk.inj (Except.ok.inj h)
      obtain ⟨t, ht, rfl⟩ := stringTail_sound hcs
      exact ⟨_, .intro ht, by simp [hc]⟩
    next => exact absurd h (by simp)

theorem quoteThen_string_complete {t : List Char} {text : String} (h : SpellsString t text)
    (rest : List Char) : quoteThen string (t ++ rest) = .ok (text, rest) := by
  cases h with
  | intro ht =>
    have hread := stringTail_complete ht rest
    simp [quoteThen, string, hread, bind, Except.bind, pure, Except.pure]

theorem exists_eq_quote_of_spellsString {t : List Char} {text : String}
    (h : SpellsString t text) : ∃ u, t = '"' :: u := by
  cases h with
  | intro => exact ⟨_, rfl⟩

theorem agrees_quoteThen_string : Agrees (quoteThen string) SpellsString where
  sound h := by
    obtain ⟨t, ht, hs⟩ := quoteThen_string_sound h
    exact ⟨[], t, isSpaces_nil, ht, hs⟩
  complete h _ := quoteThen_string_complete h _
  head h := by
    obtain ⟨u, rfl⟩ := exists_eq_quote_of_spellsString h
    exact ⟨'"', u, rfl, by decide, by decide, by decide⟩

/-! ## Scalars -/

theorem scalar_sound {s rest : List Char} {j : Json} (h : scalar s = .ok (j, rest)) :
    ∃ t, SpellsScalar t j ∧ s = t ++ rest := by
  cases s with
  | nil => exact absurd h (by simp [scalar])
  | cons c s =>
    rw [scalar] at h
    split at h
    next hc =>
      obtain ⟨rfl, rfl⟩ := keyword_then_eq_ok_iff.1 h
      exact ⟨_, .null, by rw [hc]; rfl⟩
    split at h
    next hc =>
      obtain ⟨rfl, rfl⟩ := keyword_then_eq_ok_iff.1 h
      exact ⟨_, .true, by rw [hc]; rfl⟩
    split at h
    next hc =>
      obtain ⟨rfl, rfl⟩ := keyword_then_eq_ok_iff.1 h
      exact ⟨_, .false, by rw [hc]; rfl⟩
    split at h
    next hc =>
      obtain ⟨⟨text, s₁⟩, hstring, h⟩ := bind_eq_ok_iff.1 h
      obtain ⟨rfl, rfl⟩ := Prod.mk.inj (Except.ok.inj h)
      have hquote : quoteThen string (c :: s) = .ok (text, s₁) := by
        rw [quoteThen, if_pos hc, hstring]
      obtain ⟨t, ht, hs⟩ := quoteThen_string_sound hquote
      exact ⟨t, .string ht, hs⟩
    split at h
    next =>
      obtain ⟨⟨n, s₁⟩, hnumber, h⟩ := bind_eq_ok_iff.1 h
      obtain ⟨rfl, rfl⟩ := Prod.mk.inj (Except.ok.inj h)
      obtain ⟨t, ht, hs⟩ := number_sound hnumber
      exact ⟨t, .number ht, hs⟩
    next => exact absurd h (by simp)

theorem scalar_complete {t rest : List Char} {j : Json} (h : SpellsScalar t j)
    (hrest : EndsNumeral rest) : scalar (t ++ rest) = .ok (j, rest) := by
  cases h with
  | null =>
    rw [List.cons_append, scalar, if_pos rfl]
    exact keyword_then_eq_ok_iff.2 ⟨rfl, rfl⟩
  | true =>
    rw [List.cons_append, scalar, if_neg (by decide), if_pos rfl]
    exact keyword_then_eq_ok_iff.2 ⟨rfl, rfl⟩
  | false =>
    rw [List.cons_append, scalar, if_neg (by decide), if_neg (by decide), if_pos rfl]
    exact keyword_then_eq_ok_iff.2 ⟨rfl, rfl⟩
  | @number t n hn =>
    obtain ⟨c, u, rfl, hc⟩ := exists_eq_cons_of_spellsNumber hn
    have hnumber := number_complete hn hrest
    -- No other scalar begins as a number does.
    have hother : ∀ d, startsNumber d = false → c ≠ d := by
      rintro d hd rfl
      exact absurd (hc.symm.trans hd) (by decide)
    rw [List.cons_append] at hnumber ⊢
    rw [scalar, if_neg (hother _ (by decide)), if_neg (hother _ (by decide)),
      if_neg (hother _ (by decide)), if_neg (hother _ (by decide)),
      if_pos (by simpa [startsNumber] using hc), hnumber]
    rfl
  | @string t s hs =>
    have hstring := quoteThen_string_complete hs rest
    cases hs with
    | intro =>
      rw [List.cons_append, quoteThen, if_pos rfl] at hstring
      rw [List.cons_append, scalar, if_neg (by decide), if_neg (by decide), if_neg (by decide),
        if_pos rfl, hstring]
      rfl

end Reader

end FilterTemplate.Json
