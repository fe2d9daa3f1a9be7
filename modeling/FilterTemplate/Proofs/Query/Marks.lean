/-
  FilterTemplate.Proofs.Query.Marks

  Reading marks off a text. Where paths have none of the characters that stand
  around them, the text of a mark tells the mark and its own end. Only an open
  parenthesis is also the beginning of an empty pair; but behind it a condition
  is due, which begins with no closing parenthesis. So marks that come at the
  right stages are read off any text that spells them.
-/
import FilterTemplate.Query.Outline
import FilterTemplate.Substitution

namespace FilterTemplate

/-! ## Reading -/

/-- The characters that operators are written with. -/
def operatorChars : List Char :=
  ['=', '!', '<', '>', '~', '?']

/-- The characters that stand around paths. -/
def syntaxChars : List Char :=
  operatorChars ++ ['(', ')', '\x7b', '\x7d', '\'', '&', '|', ' ']

/-- The path can be told from what stands around it. -/
def IsPlainPath (path : String) : Prop :=
  path ≠ "" ∧ ∀ c ∈ path.toList, c ∉ syntaxChars

-- The characters of the path are gone through, not all characters there are.
instance (path : String) : Decidable (IsPlainPath path) :=
  @instDecidableAnd _ _ inferInstance (List.decidableBAll _ _)

namespace Mark

/-- The parenthesis or connective at the beginning of a text, and the text behind it. -/
def readJoint : List Char → Option (Mark × List Char)
  | '(' :: ')' :: s => some (.empty, s)
  | '(' :: s => some (.opened, s)
  | ')' :: s => some (.closed, s)
  | ' ' :: '&' :: '&' :: ' ' :: s => some (.and, s)
  | ' ' :: '|' :: '|' :: ' ' :: s => some (.or, s)
  | _ => none

/-- The null check or comparison whose path is read already, and the text behind it. -/
def readBehindPath (path : String) (s : List Char) : Option (Mark × List Char) :=
  let token := String.ofList (s.takeWhile (· ∈ operatorChars))
  match s.dropWhile (· ∈ operatorChars) with
  | '\'' :: '\'' :: s => some (if token = "=" then .isNull path else .isNotNull path, s)
  | '\x7b' :: s =>
    (Operator.ofText? token).map fun op => (.compared path op, (s.dropWhile (· ≠ '\x7d')).tail)
  | _ => none

/-- The mark at the beginning of a text, and the text behind it. -/
def read (s : List Char) : Option (Mark × List Char) :=
  let path := s.takeWhile (· ∉ syntaxChars)
  if path = [] then readJoint s
  else readBehindPath (String.ofList path) (s.dropWhile (· ∉ syntaxChars))

theorem length_lt_of_readJoint {s rest : List Char} {mark : Mark}
    (h : readJoint s = some (mark, rest)) : rest.length < s.length := by
  unfold readJoint at h
  -- Each of them takes one character at least.
  split at h
  all_goals simp_all
  all_goals omega

theorem length_lt_of_readBehindPath {path : String} {s rest : List Char} {mark : Mark}
    (h : readBehindPath path s = some (mark, rest)) : rest.length < s.length := by
  have hoperator := (List.dropWhile_sublist (· ∈ operatorChars) (l := s)).length_le
  simp only [readBehindPath] at h
  split at h
  next t hbehind =>
    rw [hbehind, List.length_cons, List.length_cons] at hoperator
    have hrest : t = rest := congrArg Prod.snd (Option.some.inj h)
    rw [← hrest]
    omega
  next t hbehind =>
    rw [hbehind, List.length_cons] at hoperator
    have hname := (List.dropWhile_sublist (· ≠ '\x7d') (l := t)).length_le
    obtain ⟨op, -, hop⟩ := Option.map_eq_some_iff.1 h
    have hrest : (t.dropWhile (· ≠ '\x7d')).tail = rest := congrArg Prod.snd hop
    rw [← hrest, List.length_tail]
    omega
  next => exact absurd h (by simp)

/-- Reading a mark leaves less of the text. -/
theorem length_lt_of_read {s rest : List Char} {mark : Mark} (h : read s = some (mark, rest)) :
    rest.length < s.length := by
  have hpath := (List.dropWhile_sublist (· ∉ syntaxChars) (l := s)).length_le
  simp only [read] at h
  split at h
  · exact length_lt_of_readJoint h
  · have hbehind := length_lt_of_readBehindPath h
    omega

/-- The marks of a text, up to where it has no mark. -/
def readAll (s : List Char) : List Mark :=
  match _h : read s with
  | none => []
  | some (mark, rest) => mark :: readAll rest
termination_by s.length
decreasing_by exact length_lt_of_read _h

theorem readAll_nil : readAll [] = [] := by
  rw [readAll]
  rfl

theorem readAll_eq_cons {s rest : List Char} {mark : Mark} (h : read s = some (mark, rest)) :
    readAll s = mark :: readAll rest := by
  rw [readAll]
  split
  next hnone => exact absurd (h.symm.trans hnone) (by simp)
  next hsome =>
    cases h.symm.trans hsome
    rfl

/-! ## Spelling -/

/-- The text is one that writes the mark. The name in a placeholder is no part of
the mark. -/
inductive Spells : Mark → List Char → Prop where
  | opened : Spells .opened ['(']
  | closed : Spells .closed [')']
  | empty : Spells .empty ['(', ')']
  | and : Spells .and " && ".toList
  | or : Spells .or " || ".toList
  | isNull {path : String} :
    IsPlainPath path → Spells (.isNull path) (path.toList ++ "=''".toList)
  | isNotNull {path : String} :
    IsPlainPath path → Spells (.isNotNull path) (path.toList ++ "!=''".toList)
  | compared {path name : String} (op : Operator) : IsPlainPath path → '\x7d' ∉ name.toList →
    Spells (.compared path op) (path.toList ++ op.token.toList ++ placeholder name)

/-- The text is made of texts that write the marks. -/
inductive SpellsAll : List Mark → List Char → Prop where
  | nil : SpellsAll [] []
  | cons {mark : Mark} {marks : List Mark} {s t : List Char} :
    Spells mark s → SpellsAll marks t → SpellsAll (mark :: marks) (s ++ t)

theorem SpellsAll.append {xs ys : List Mark} {s t : List Char} (hs : SpellsAll xs s)
    (ht : SpellsAll ys t) : SpellsAll (xs ++ ys) (s ++ t) := by
  induction hs with
  | nil => exact ht
  | cons hmark _ ih =>
    rw [List.cons_append, List.append_assoc]
    exact .cons hmark ih

theorem Spells.all {mark : Mark} {s : List Char} (h : Spells mark s) : SpellsAll [mark] s := by
  have hall := SpellsAll.cons h .nil
  rwa [List.append_nil] at hall

/-! ### Reading what is spelled -/

theorem takeWhile_append_cons {p : Char → Bool} {s t : List Char} {c : Char}
    (hs : ∀ x ∈ s, p x = true) (hc : p c = false) : (s ++ c :: t).takeWhile p = s := by
  rw [List.takeWhile_append_of_pos hs, List.takeWhile_cons_of_neg (by simp [hc]), List.append_nil]

theorem dropWhile_append_cons {p : Char → Bool} {s t : List Char} {c : Char}
    (hs : ∀ x ∈ s, p x = true) (hc : p c = false) : (s ++ c :: t).dropWhile p = c :: t := by
  rw [List.dropWhile_append_of_pos hs, List.dropWhile_cons_of_neg (by simp [hc])]

theorem token_eq_cons (op : Operator) :
    ∃ c t, op.token.toList = c :: t ∧ decide (c ∉ syntaxChars) = false := by
  cases op <;> exact ⟨_, _, rfl, by decide⟩

theorem mem_operatorChars_of_mem_token (op : Operator) :
    ∀ x ∈ op.token.toList, decide (x ∈ operatorChars) = true := by
  have hall : op.token.toList.all (· ∈ operatorChars) = true := by
    cases op <;> decide +kernel
  exact List.all_eq_true.1 hall

theorem ofText?_token (op : Operator) : Operator.ofText? op.token = some op := by
  cases op <;> decide +kernel

/-- A path is read up to the operator behind it. -/
theorem read_path {path : String} (hpath : IsPlainPath path) (op : Operator) (s : List Char) :
    read (path.toList ++ (op.token.toList ++ s)) =
      readBehindPath path (op.token.toList ++ s) := by
  have hplain : ∀ x ∈ path.toList, decide (x ∉ syntaxChars) = true :=
    fun x hx => decide_eq_true (hpath.2 x hx)
  have hne : path.toList ≠ [] := fun h => hpath.1 (String.toList_eq_nil_iff.1 h)
  -- The path ends where the operator begins.
  obtain ⟨c, t, htoken, hc⟩ := token_eq_cons op
  simp only [read]
  rw [htoken, List.cons_append, takeWhile_append_cons hplain hc, dropWhile_append_cons hplain hc,
    if_neg hne, String.ofList_toList]

theorem readBehindPath_quotes (path : String) (op : Operator) (rest : List Char) :
    readBehindPath path (op.token.toList ++ '\'' :: '\'' :: rest) =
      some (if op.token = "=" then .isNull path else .isNotNull path, rest) := by
  have htoken := mem_operatorChars_of_mem_token op
  have hquote : decide ('\'' ∈ operatorChars) = false := by decide
  simp only [readBehindPath]
  rw [takeWhile_append_cons htoken hquote, dropWhile_append_cons htoken hquote]
  simp only [String.ofList_toList]

theorem readBehindPath_placeholder (path : String) (op : Operator) {name : String}
    (hname : '\x7d' ∉ name.toList) (rest : List Char) :
    readBehindPath path (op.token.toList ++ (placeholder name ++ rest)) =
      some (.compared path op, rest) := by
  have htoken := mem_operatorChars_of_mem_token op
  have hbrace : decide ('\x7b' ∈ operatorChars) = false := by decide
  -- The only closing brace is the one behind the name.
  have hinside : ∀ x ∈ ':' :: name.toList, decide (x ≠ '\x7d') = true := by
    intro x hx
    rcases List.mem_cons.1 hx with rfl | hx
    · decide
    · exact decide_eq_true fun heq => hname (heq ▸ hx)
  have hplaceholder : placeholder name ++ rest =
      '\x7b' :: (':' :: name.toList ++ '\x7d' :: rest) := by
    simp [placeholder]
  simp only [readBehindPath, hplaceholder]
  rw [takeWhile_append_cons htoken hbrace, dropWhile_append_cons htoken hbrace]
  simp only [String.ofList_toList, ofText?_token, Option.map_some]
  rw [dropWhile_append_cons hinside (by decide), List.tail_cons]

theorem read_opened {rest : List Char} (hrest : rest.head? ≠ some ')') :
    read ('(' :: rest) = some (.opened, rest) := by
  cases rest with
  | nil => rfl
  | cons c t =>
    have hc : c ≠ ')' := fun h => hrest (congrArg some h)
    have hjoint : read ('(' :: c :: t) = readJoint ('(' :: c :: t) := rfl
    rw [hjoint]
    simp [readJoint, hc]

/-- What spells a mark is read as the mark, whatever text follows. Only an open
parenthesis has to be followed by no closing one. -/
theorem read_append {mark : Mark} {s : List Char} (h : Spells mark s) {rest : List Char}
    (hrest : mark = .opened → rest.head? ≠ some ')') : read (s ++ rest) = some (mark, rest) := by
  cases h with
  | opened => exact read_opened (hrest rfl)
  | closed => rfl
  | empty => rfl
  | and => rfl
  | or => rfl
  | isNull hpath =>
    rw [List.append_assoc]
    exact (read_path hpath .equal _).trans (readBehindPath_quotes _ .equal rest)
  | isNotNull hpath =>
    rw [List.append_assoc]
    exact (read_path hpath .notEqual _).trans (readBehindPath_quotes _ .notEqual rest)
  | compared op hpath hname =>
    rw [List.append_assoc, List.append_assoc, read_path hpath]
    exact readBehindPath_placeholder _ op hname rest

/-! ## Marks in order -/

/-- The stage after a mark, if the mark is allowed. -/
def next : Stage → Mark → Option Stage
  | .condition, .opened => some .condition
  | .condition, .closed => none
  | .condition, .and => none
  | .condition, .or => none
  | .condition, _ => some .complete
  | .complete, .closed => some .complete
  | .complete, .and => some .condition
  | .complete, .or => some .condition
  | .complete, _ => none

theorem head?_path_append_ne {path : String} (h : IsPlainPath path) (s : List Char) :
    (path.toList ++ s).head? ≠ some ')' := by
  cases hlist : path.toList with
  | nil => exact absurd (String.toList_eq_nil_iff.1 hlist) h.1
  | cons c t =>
    have hc : c ∉ syntaxChars := h.2 c (hlist ▸ List.mem_cons_self)
    rw [List.cons_append, List.head?_cons]
    rintro ⟨⟩
    exact hc (by decide)

/-- Where a condition is due, no parenthesis closes. -/
theorem head?_ne_of_spellsAll {marks : List Mark} {s : List Char} {stage : Stage}
    (h : SpellsAll marks s) (hstages : marks.foldlM next .condition = some stage) :
    s.head? ≠ some ')' := by
  cases h with
  | nil => simp
  | @cons mark marks s t hmark hmarks =>
    cases hmark with
    | opened => simp
    | empty => simp
    | closed => exact absurd hstages (by simp [next])
    | and => exact absurd hstages (by simp [next])
    | or => exact absurd hstages (by simp [next])
    | isNull hpath =>
      rw [List.append_assoc]
      exact head?_path_append_ne hpath _
    | isNotNull hpath =>
      rw [List.append_assoc]
      exact head?_path_append_ne hpath _
    | compared op hpath _ =>
      rw [List.append_assoc, List.append_assoc]
      exact head?_path_append_ne hpath _

/-- Marks in order are read off any text that spells them. -/
theorem readAll_of_spellsAll {marks : List Mark} {s : List Char} {stage stage' : Stage}
    (h : SpellsAll marks s) (hstages : marks.foldlM next stage = some stage') :
    readAll s = marks := by
  induction h generalizing stage with
  | nil => exact readAll_nil
  | @cons mark marks s t hmark hmarks ih =>
    rw [List.foldlM_cons, Option.bind_eq_bind] at hstages
    obtain ⟨between, hnext, hrest⟩ := Option.bind_eq_some_iff.1 hstages
    have hbehind : mark = .opened → t.head? ≠ some ')' := by
      rintro rfl
      -- An opening is allowed at one stage, and leaves it as it is.
      have hbetween : between = .condition := by
        cases stage with
        | condition => exact (Option.some.inj hnext).symm
        | complete => exact absurd hnext (by simp [next])
      rw [hbetween] at hrest
      exact head?_ne_of_spellsAll hmarks hrest
    rw [readAll_eq_cons (read_append hmark hbehind), ih hrest]

end Mark

end FilterTemplate
