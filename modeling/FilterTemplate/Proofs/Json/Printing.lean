/-
  FilterTemplate.Proofs.Json.Printing

  Printed values against the grammar. In either layout the text of a value
  without floating-point numbers spells that value, to the depth that it has:
  characters are escaped so that they are read back, digits stand for their
  number, and a container puts nothing but white space between its marks.
-/
import FilterTemplate.Json.Printer
import FilterTemplate.Proofs.Json.Members
import FilterTemplate.Proofs.Json.Values
import FilterTemplate.Value.Normal

namespace FilterTemplate.Json

/-! ## Strings -/

/-- Both digits of a control character are below sixteen. -/
theorem hexValue?_digitChar {n : Nat} (h : n < 16) :
    Reader.hexValue? (Nat.digitChar n) = some n := by
  revert n
  decide

theorem hexQuad?_of_control {c : Char} (h : c.toNat < 0x20) :
    Reader.hexQuad? '0' '0' (Nat.digitChar (c.toNat / 16)) (Nat.digitChar (c.toNat % 16)) =
      some c.toNat := by
  have hhigh : Reader.hexValue? (Nat.digitChar (c.toNat / 16)) = some (c.toNat / 16) :=
    hexValue?_digitChar (by omega)
  have hlow : Reader.hexValue? (Nat.digitChar (c.toNat % 16)) = some (c.toNat % 16) :=
    hexValue?_digitChar (by omega)
  have hzero : Reader.hexValue? '0' = some 0 := rfl
  rw [Reader.hexQuad?, hzero, hhigh, hlow]
  simp only [Option.bind_eq_bind, Option.bind_some, Option.pure_def, Option.some.injEq]
  omega

theorem spellsChar_escapedChar (c : Char) : SpellsChar (escapedChar c) c := by
  rw [escapedChar.eq_def]
  split
  case h_8 hquote hslash _ _ _ _ _ =>
    split
    next hcontrol =>
      have hlow : ¬ Reader.isLowSurrogate c.toNat = true := by
        simp only [Reader.isLowSurrogate, Bool.and_eq_true, decide_eq_true_eq]
        omega
      have hhigh : ¬ Reader.isHighSurrogate c.toNat = true := by
        simp only [Reader.isHighSurrogate, Bool.and_eq_true, decide_eq_true_eq]
        omega
      have hunit := SpellsChar.unit (hexQuad?_of_control hcontrol) hlow hhigh
      rwa [Char.ofNat_toNat] at hunit
    next hcontrol => exact .plain hquote hslash hcontrol
  all_goals exact .short rfl

theorem spellsChars_flatMap (cs : List Char) : SpellsChars (cs.flatMap escapedChar) cs := by
  induction cs with
  | nil => exact .nil
  | cons c cs ih =>
    rw [List.flatMap_cons]
    exact .cons (spellsChar_escapedChar c) ih

theorem spellsString_stringText (s : String) : SpellsString (stringText s) s := by
  have h := SpellsString.intro (spellsChars_flatMap s.toList)
  rwa [String.ofList_toList] at h

/-! ## Numbers -/

theorem isWhole_toDigits (n : Nat) : IsWhole (Nat.toDigits 10 n) := by
  refine ⟨⟨Nat.toDigits_ne_nil, fun c hc => ?_⟩, fun hzero => ?_⟩
  · exact Nat.isDigit_of_mem_toDigits (by decide) (by decide) hc
  · by_cases hn : n = 0
    · rw [hn, Nat.toDigits_zero]
    · exact absurd hzero (head?_toDigits_ne_zero (Nat.pos_of_ne_zero hn))

theorem spellsUnsigned_toDigits (negative : Bool) (n : Nat) :
    SpellsUnsigned negative (Nat.toDigits 10 n) ⟨negative, Nat.toDigits 10 n, none, none⟩ := by
  have h : SpellsUnsigned negative (Nat.toDigits 10 n ++ ([] ++ []))
      ⟨negative, Nat.toDigits 10 n, none, none⟩ := .intro (isWhole_toDigits n) .none .none
  rwa [List.append_nil, List.append_nil] at h

theorem spellsNumber_integerText (i : Int)
    (h : -9223372036854775808 ≤ i ∧ i < 18446744073709551616) :
    SpellsNumber (integerText i) (.int i h) := by
  rw [integerText]
  split
  next hneg =>
    refine ⟨_, .negative (spellsUnsigned_toDigits true i.natAbs), ?_⟩
    have hrange : 0 < i.natAbs ∧ i.natAbs ≤ 9223372036854775808 := by omega
    have habs : -(i.natAbs : Int) = i := by omega
    simp only [Reader.Numeral.toNumber?, Option.isNone_none, and_self, if_true,
      digitsValue_toDigits, dif_pos hrange, habs]
  next hneg =>
    refine ⟨_, .positive (spellsUnsigned_toDigits false i.natAbs), ?_⟩
    have hrange : i.natAbs < 18446744073709551616 := by omega
    have habs : (i.natAbs : Int) = i := by omega
    simp only [Reader.Numeral.toNumber?, Option.isNone_none, and_self, if_true,
      Bool.false_eq_true, if_false, digitsValue_toDigits, dif_pos hrange, habs]

/-! ## Containers -/

theorem Layout.isSpaces_lineBreak (layout : Layout) (level : Nat) :
    IsSpaces (layout.lineBreak level) := by
  cases layout with
  | compact => exact fun _ hc => absurd hc (by simp [lineBreak])
  | indented =>
    refine List.forall_mem_cons.2 ⟨by decide, fun c hc => ?_⟩
    rw [(List.mem_replicate.1 hc).2]
    decide

section

variable {α : Type} {spells : List Char → α → Prop} {print : α → List Char}

/-- Pieces behind commas, with a line break in front of each and one behind the last. -/
theorem Layout.listed_following (layout : Layout) (level : Nat) {before after : List Char}
    {a : α} {as : List α} (hbefore : IsSpaces before) (hafter : IsSpaces after)
    (h : ∀ b ∈ a :: as, spells (print b) b) :
    Listed spells (before ++ print a ++ (layout.following level (as.map print) ++ after))
      (a :: as) := by
  induction as generalizing before a with
  | nil => exact .last (.intro hbefore (h a List.mem_cons_self) hafter)
  | cons b as ih =>
    -- The line break behind a comma belongs to the next piece.
    have htail := ih (layout.isSpaces_lineBreak level) (List.forall_mem_cons.1 h).2
    have hlisted := Listed.cons (.intro hbefore (h a List.mem_cons_self) Reader.isSpaces_nil)
      (List.cons_ne_nil b as) htail
    simpa [Layout.following] using hlisted

/-- A container is its marks around its pieces. -/
theorem Layout.exists_container_eq (layout : Layout) (level : Nat) (opening closing : Char)
    {as : List α} (h : ∀ a ∈ as, spells (print a) a) :
    ∃ inner, Listed spells inner as ∧
      layout.container level opening closing (as.map print) = opening :: (inner ++ [closing]) := by
  cases as with
  | nil => exact ⟨[], .empty Reader.isSpaces_nil, rfl⟩
  | cons a as =>
    have hlisted := layout.listed_following (level + 1) (layout.isSpaces_lineBreak (level + 1))
      (layout.isSpaces_lineBreak level) h
    exact ⟨_, hlisted, by simp [Layout.container]⟩

end

/-- A member as it is printed. -/
def memberText (layout : Layout) (level : Nat) (m : String × Json) : List Char :=
  layout.member m.1 (textAt layout level m.2)

theorem memberTexts_eq_map (layout : Layout) (level : Nat) {above : Option String}
    (ms : Members above) :
    memberTexts layout level ms = ms.entries.map (memberText layout level) := by
  match ms with
  | .nil => rfl
  | .cons key value _ rest =>
    rw [memberTexts, memberTexts_eq_map layout level rest, Members.entries, List.map_cons,
      memberText]

theorem spellsMember_memberText {spells : List Char → Json → Prop} (layout : Layout) (level : Nat)
    {m : String × Json} (h : spells (textAt layout level m.2) m.2) :
    SpellsMember spells (memberText layout level m) m := by
  have hspace : IsSpaces [' '] := Reader.isSpaces_singleton (by decide)
  obtain ⟨k, x⟩ := m
  rw [memberText, Layout.member]
  cases layout with
  | compact =>
    have hmember := SpellsMember.intro (spellsString_stringText k) Reader.isSpaces_nil
      Reader.isSpaces_nil h
    simpa [Layout.colon] using hmember
  | indented =>
    have hmember := SpellsMember.intro (spellsString_stringText k) Reader.isSpaces_nil hspace h
    simpa [Layout.colon] using hmember

/-! ## Values -/

mutual

/-- By induction on the value, its text spells it. -/
theorem spells_textAt (layout : Layout) (level budget : Nat) (j : Json)
    (hfloat : j.hasFloat = false) (hdepth : j.depth ≤ budget) :
    Spells budget (textAt layout level j) j := by
  match j with
  | .null => exact spells_of_scalar .null
  | .bool true => exact spells_of_scalar .true
  | .bool false => exact spells_of_scalar .false
  | .number (.int i h) => exact spells_of_scalar (.number (spellsNumber_integerText i h))
  | .number (.float x h) => exact absurd hfloat (by simp [hasFloat])
  | .string s => exact spells_of_scalar (.string (spellsString_stringText s))
  | .array items =>
    cases budget with
    | zero => exact absurd hdepth (by simp [depth])
    | succ budget =>
      have hitems := spells_itemTexts layout (level + 1) budget items hfloat
        (Nat.le_of_succ_le_succ hdepth)
      obtain ⟨inner, hinner, htext⟩ := layout.exists_container_eq level '[' ']' hitems
      refine .inr (.inl ⟨inner, items, hinner, ?_, rfl⟩)
      rw [textAt, itemTexts_eq_map, htext]
  | .ordered members =>
    cases budget with
    | zero => exact absurd hdepth (by simp [depth])
    | succ budget =>
      have hmembers := spells_memberTexts layout (level + 1) budget members hfloat
        (Nat.le_of_succ_le_succ hdepth)
      obtain ⟨inner, hinner, htext⟩ := layout.exists_container_eq level '\x7b' '\x7d' hmembers
      refine .inr (.inr ⟨members.entries, ⟨inner, hinner, ?_⟩, (object_entries members).symm⟩)
      rw [textAt, memberTexts_eq_map, htext]

theorem spells_itemTexts (layout : Layout) (level budget : Nat) (items : List Json)
    (hfloat : hasFloatInItems items = false) (hdepth : depthOfItems items ≤ budget) :
    ∀ x ∈ items, Spells budget (textAt layout level x) x := by
  match items with
  | [] => exact fun x hx => absurd hx (by simp)
  | x :: xs =>
    rw [hasFloatInItems, Bool.or_eq_false_iff] at hfloat
    rw [depthOfItems, Nat.max_le] at hdepth
    exact List.forall_mem_cons.2
      ⟨spells_textAt layout level budget x hfloat.1 hdepth.1,
        spells_itemTexts layout level budget xs hfloat.2 hdepth.2⟩

theorem spells_memberTexts (layout : Layout) (level budget : Nat) {above : Option String}
    (members : Members above) (hfloat : hasFloatInMembers members = false)
    (hdepth : depthOfMembers members ≤ budget) :
    ∀ m ∈ members.entries, SpellsMember (Spells budget) (memberText layout level m) m := by
  match members with
  | .nil => exact fun m hm => absurd hm List.not_mem_nil
  | .cons k x _ ms =>
    rw [hasFloatInMembers, Bool.or_eq_false_iff] at hfloat
    rw [depthOfMembers, Nat.max_le] at hdepth
    exact List.forall_mem_cons.2
      ⟨spellsMember_memberText layout level
          (spells_textAt layout level budget x hfloat.1 hdepth.1),
        spells_memberTexts layout level budget ms hfloat.2 hdepth.2⟩

end

/-! ## Members -/

/-- Such a value as a member of an object, printed on one line. -/
def MemberText.printed (name : String) (value : Json) (hfloat : value.hasFloat = false) :
    MemberText where
  name := name
  nameText := stringText name
  spells_name := .of_spells (spellsString_stringText name)
  value := value
  valueText := value.text .compact
  spells_value :=
    ⟨value.depth, .of_spells (spells_textAt .compact 0 value.depth value hfloat
      (Nat.le_refl value.depth))⟩

theorem MemberText.isWithin_printed {name : String} {value : Json}
    (hfloat : value.hasFloat = false) {budget : Nat} (hdepth : value.depth ≤ budget) :
    (printed name value hfloat).IsWithin budget :=
  .of_spells (spells_textAt .compact 0 budget value hfloat hdepth)

end FilterTemplate.Json
