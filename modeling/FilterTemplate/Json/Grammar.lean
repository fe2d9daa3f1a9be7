/-
  FilterTemplate.Json.Grammar

  The texts of JSON values, as a relation between a text and what it stands
  for. A reader of the same grammar finds the end of a value by itself; here the
  text is given whole. `Spells` is indexed by how deep containers may nest, and
  a number or a string that is out of range has no spelling. `IsObjectText`
  takes an object apart into the texts of its members.
-/
import FilterTemplate.Json.Reader

namespace FilterTemplate.Json

/-! ## White space -/

/-- Nothing but white space. -/
def IsSpaces (s : List Char) : Prop :=
  ∀ c ∈ s, Reader.isSpace c = true

instance : DecidablePred IsSpaces := fun s =>
  inferInstanceAs (Decidable (∀ c ∈ s, Reader.isSpace c = true))

/-- White space may stand before and after what is spelled. -/
inductive Padded {α : Type} (spells : List Char → α → Prop) : List Char → α → Prop where
  | intro {before core after : List Char} {a : α} : IsSpaces before → spells core a →
    IsSpaces after → Padded spells (before ++ core ++ after) a

/-- Pieces with commas between them. -/
inductive Listed {α : Type} (spells : List Char → α → Prop) : List Char → List α → Prop where
  | empty {s : List Char} : IsSpaces s → Listed spells s []
  | last {s : List Char} {a : α} : Padded spells s a → Listed spells s [a]
  | cons {s t : List Char} {a : α} {as : List α} : Padded spells s a → as ≠ [] →
    Listed spells t as → Listed spells (s ++ ',' :: t) (a :: as)

/-! ## Numbers -/

/-- One digit or more. -/
def IsDigits (s : List Char) : Prop :=
  s ≠ [] ∧ ∀ c ∈ s, c.isDigit = true

/-- The digits before a point; only a lone digit may be a zero at the front. -/
def IsWhole (s : List Char) : Prop :=
  IsDigits s ∧ (s.head? = some '0' → s = ['0'])

/-- The text is a fraction, or stands for none. -/
inductive SpellsFraction : List Char → Option (List Char) → Prop where
  | none : SpellsFraction [] none
  | some {ds : List Char} : IsDigits ds → SpellsFraction ('.' :: ds) (some ds)

/-- The text is an exponent, or stands for none. -/
inductive SpellsExponent : List Char → Option Int → Prop where
  | none : SpellsExponent [] none
  | unsigned {mark : Char} {ds : List Char} : mark = 'e' ∨ mark = 'E' → IsDigits ds →
    SpellsExponent (mark :: ds) (some (digitsValue ds))
  | plus {mark : Char} {ds : List Char} : mark = 'e' ∨ mark = 'E' → IsDigits ds →
    SpellsExponent (mark :: '+' :: ds) (some (digitsValue ds))
  | minus {mark : Char} {ds : List Char} : mark = 'e' ∨ mark = 'E' → IsDigits ds →
    SpellsExponent (mark :: '-' :: ds) (some (-(digitsValue ds : Int)))

/-- The text is a numeral behind its sign. -/
inductive SpellsUnsigned (negative : Bool) : List Char → Reader.Numeral → Prop where
  | intro {whole fraction exponent : List Char} {f : Option (List Char)} {e : Option Int} :
    IsWhole whole → SpellsFraction fraction f → SpellsExponent exponent e →
    SpellsUnsigned negative (whole ++ (fraction ++ exponent)) ⟨negative, whole, f, e⟩

/-- The text is a numeral. -/
inductive SpellsNumeral : List Char → Reader.Numeral → Prop where
  | positive {t : List Char} {n : Reader.Numeral} : SpellsUnsigned false t n → SpellsNumeral t n
  | negative {t : List Char} {n : Reader.Numeral} : SpellsUnsigned true t n →
    SpellsNumeral ('-' :: t) n

/-- The text is a numeral of a number in range. -/
def SpellsNumber (t : List Char) (n : Number) : Prop :=
  ∃ numeral, SpellsNumeral t numeral ∧ numeral.toNumber? = some n

/-! ## Strings -/

/-- The text is one character of a string, written as it is or escaped. -/
inductive SpellsChar : List Char → Char → Prop where
  | plain {c : Char} : c ≠ '"' → c ≠ '\\' → ¬ c.toNat < 0x20 → SpellsChar [c] c
  | short {e c : Char} : Reader.shortEscape? e = some c → SpellsChar ['\\', e] c
  | unit {h₁ h₂ h₃ h₄ : Char} {n : Nat} : Reader.hexQuad? h₁ h₂ h₃ h₄ = some n →
    ¬ Reader.isLowSurrogate n = true → ¬ Reader.isHighSurrogate n = true →
    SpellsChar ['\\', 'u', h₁, h₂, h₃, h₄] (Char.ofNat n)
  | pair {h₁ h₂ h₃ h₄ l₁ l₂ l₃ l₄ : Char} {high low : Nat} :
    Reader.hexQuad? h₁ h₂ h₃ h₄ = some high → Reader.hexQuad? l₁ l₂ l₃ l₄ = some low →
    ¬ Reader.isLowSurrogate high = true → Reader.isHighSurrogate high = true →
    Reader.isLowSurrogate low = true →
    SpellsChar ['\\', 'u', h₁, h₂, h₃, h₄, '\\', 'u', l₁, l₂, l₃, l₄]
      (Reader.surrogatePair high low)

/-- The text is made of characters of a string. -/
inductive SpellsChars : List Char → List Char → Prop where
  | nil : SpellsChars [] []
  | cons {s t : List Char} {c : Char} {cs : List Char} : SpellsChar s c → SpellsChars t cs →
    SpellsChars (s ++ t) (c :: cs)

/-- The text is a string in its quotes. -/
inductive SpellsString : List Char → String → Prop where
  | intro {t cs : List Char} : SpellsChars t cs →
    SpellsString ('"' :: (t ++ ['"'])) (String.ofList cs)

/-! ## Values -/

/-- The text is a value that is not a container. -/
inductive SpellsScalar : List Char → Json → Prop where
  | null : SpellsScalar ['n', 'u', 'l', 'l'] .null
  | true : SpellsScalar ['t', 'r', 'u', 'e'] (.bool true)
  | false : SpellsScalar ['f', 'a', 'l', 's', 'e'] (.bool false)
  | number {t : List Char} {n : Number} : SpellsNumber t n → SpellsScalar t (.number n)
  | string {t : List Char} {s : String} : SpellsString t s → SpellsScalar t (.string s)

/-- The text is a member of an object, whose value is spelled as given. -/
inductive SpellsMember (spells : List Char → Json → Prop) : List Char → String × Json → Prop where
  | intro {key between before core : List Char} {name : String} {j : Json} :
    SpellsString key name → IsSpaces between → IsSpaces before → spells core j →
    SpellsMember spells (key ++ (between ++ ':' :: (before ++ core))) (name, j)

/-- The text is an object with the members in their order, repeated ones among them. -/
def SpellsObject (spells : List Char → Json → Prop) (t : List Char)
    (members : List (String × Json)) : Prop :=
  ∃ inner, Listed (SpellsMember spells) inner members ∧ t = '\x7b' :: (inner ++ ['\x7d'])

/-- The text is a value in which containers nest no deeper than the budget. -/
def Spells : (budget : Nat) → List Char → Json → Prop
  | 0, t, j => SpellsScalar t j
  | budget + 1, t, j =>
    SpellsScalar t j ∨
      (∃ inner items, Listed (Spells budget) inner items ∧ t = '[' :: (inner ++ [']']) ∧
        j = .array items) ∨
      ∃ members, SpellsObject (Spells budget) t members ∧ j = .object members

/-! ## Objects by their members -/

/-- A member of an object as it is written: the text of its name and the text of
its value, each with the white space around it. The value may nest to any depth;
a number out of range or half a pair of code units stands for none. -/
structure MemberText where
  name : String
  nameText : List Char
  spells_name : Padded SpellsString nameText name
  value : Json
  valueText : List Char
  spells_value : ∃ budget, Padded (Spells budget) valueText value

namespace MemberText

/-- The name and the value. -/
def member (m : MemberText) : String × Json :=
  (m.name, m.value)

/-- The member between its commas. -/
def text (m : MemberText) : List Char :=
  m.nameText ++ ':' :: m.valueText

/-- The members with commas between them. -/
def texts : List MemberText → List Char
  | [] => []
  | [m] => m.text
  | m :: n :: ms => m.text ++ ',' :: texts (n :: ms)

/-- The value of the member nests no deeper than the budget. -/
def IsWithin (budget : Nat) (m : MemberText) : Prop :=
  Padded (Spells budget) m.valueText m.value

end MemberText

/-- The text is that of an object with the members in their order. -/
inductive IsObjectText (members : List MemberText) : List Char → Prop where
  | intro {before inside after : List Char} : IsSpaces before → IsSpaces inside →
    IsSpaces after →
    IsObjectText members
      (before ++ '\x7b' :: (inside ++ (MemberText.texts members ++ '\x7d' :: after)))

end FilterTemplate.Json
