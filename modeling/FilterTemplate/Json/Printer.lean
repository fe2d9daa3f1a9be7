/-
  FilterTemplate.Json.Printer

  JSON text. `Layout` is the choice between one line without spaces and one
  member to a line with two spaces for each level; all else is the same in
  both. Strings escape the double quote, the backslash and the control
  characters, and floating-point numbers are told from whole ones by a point
  or an exponent. A `Document` is what is written that is no value: an object of
  it has its members in the order in which they are given.
-/
import FilterTemplate.Json.Basic
import FilterTemplate.Number.DecimalText
import FilterTemplate.Number.IntegerText

namespace FilterTemplate.Json

/-! ## Strings -/

/-- One character of a string, escaped if it has to be. -/
def escapedChar (c : Char) : List Char :=
  match c with
  | '"' => ['\\', '"']
  | '\\' => ['\\', '\\']
  | '\x08' => ['\\', 'b']
  | '\x0c' => ['\\', 'f']
  | '\n' => ['\\', 'n']
  | '\r' => ['\\', 'r']
  | '\t' => ['\\', 't']
  | c =>
    if c.toNat < 0x20 then
      ['\\', 'u', '0', '0', Nat.digitChar (c.toNat / 16), Nat.digitChar (c.toNat % 16)]
    else [c]

/-- A string in double quotes. -/
def stringText (s : String) : List Char :=
  '"' :: (s.toList.flatMap escapedChar ++ ['"'])

/-! ## Numbers -/

/-- A finite number. It is written with all its places from `0.00001` up to
below `10 ^ 16` and with a power of ten outside; of two equally near
decimals the one with the even last digit is taken. -/
def floatText (x : Binary64) : List Char :=
  let magnitude :=
    if x.isZero then ['0', '.', '0']
    else
      let d := x.shortest .even
      if -5 ≤ d.leading ∧ d.leading ≤ 15 then d.positional ['.', '0'] else d.scientific
  if x.isNegative then '-' :: magnitude else magnitude

/-- A number of either kind. -/
def Number.text : Number → List Char
  | .int i _ => integerText i
  | .float x _ => floatText x

/-! ## Layout -/

/-- How a text is laid out. -/
inductive Layout where
  /-- On one line, without spaces. -/
  | compact
  /-- One item or member to a line, two spaces further in for each level. -/
  | indented
  deriving DecidableEq

namespace Layout

/-- What comes between two items, before the first and after the last. -/
def lineBreak : Layout → (level : Nat) → List Char
  | .compact, _ => []
  | .indented, level => '\n' :: List.replicate (2 * level) ' '

/-- What comes between a key and its value. -/
def colon : Layout → List Char
  | .compact => [':']
  | .indented => [':', ' ']

/-- A key and the text of its value. -/
def member (layout : Layout) (key : String) (value : List Char) : List Char :=
  stringText key ++ layout.colon ++ value

/-- The pieces after the first, each behind a comma. -/
def following (layout : Layout) (level : Nat) : List (List Char) → List Char
  | [] => []
  | piece :: rest => ',' :: layout.lineBreak level ++ piece ++ following layout level rest

/-- The pieces of a container between its marks. -/
def container (layout : Layout) (level : Nat) (opening closing : Char) :
    List (List Char) → List Char
  | [] => [opening, closing]
  | piece :: rest =>
    opening :: layout.lineBreak (level + 1) ++ piece ++ layout.following (level + 1) rest ++
      layout.lineBreak level ++ [closing]

end Layout

/-! ## Values -/

mutual

/-- The text of a value whose first line starts at the given level. -/
def textAt (layout : Layout) (level : Nat) : Json → List Char
  | .null => ['n', 'u', 'l', 'l']
  | .bool true => ['t', 'r', 'u', 'e']
  | .bool false => ['f', 'a', 'l', 's', 'e']
  | .number n => n.text
  | .string s => stringText s
  | .array items => layout.container level '[' ']' (itemTexts layout (level + 1) items)
  | .ordered members =>
    layout.container level '\x7b' '\x7d' (memberTexts layout (level + 1) members)

/-- The texts of the items. -/
def itemTexts (layout : Layout) (level : Nat) : List Json → List (List Char)
  | [] => []
  | x :: xs => textAt layout level x :: itemTexts layout level xs

/-- The texts of the members. -/
def memberTexts (layout : Layout) (level : Nat) {above : Option String} :
    Members above → List (List Char)
  | .nil => []
  | .cons k x _ xs => layout.member k (textAt layout level x) :: memberTexts layout level xs

end

/-- The text of a value. -/
def text (layout : Layout) (j : Json) : List Char :=
  textAt layout 0 j

/-- The text on one line. -/
def compact (j : Json) : String :=
  String.ofList (text .compact j)

/-- The text with one item or member to a line. -/
def indented (j : Json) : String :=
  String.ofList (text .indented j)

theorem itemTexts_eq_map (layout : Layout) (level : Nat) (items : List Json) :
    itemTexts layout level items = items.map (textAt layout level) := by
  induction items with
  | nil => rfl
  | cons x xs ih => simp [itemTexts, ih]

example : text .compact (.object [("b", .object []), ("a\n", .array [.bool true, .null])]) =
    "\x7b\"a\\n\":[true,null],\"b\":\x7b\x7d\x7d".toList := by decide +kernel

example : text .indented (.array [.string "x"]) = "[\n  \"x\"\n]".toList := by decide +kernel

/-! ## Documents -/

/-- What is written as JSON, given by its text. -/
structure Document where
  /-- The text in a layout, whose first line starts at the given level. -/
  textAt : Layout → (level : Nat) → List Char

namespace Document

/-- A value. -/
def ofJson (j : Json) : Document where
  textAt layout level := Json.textAt layout level j

/-- An array. -/
def array (items : List Document) : Document where
  textAt layout level :=
    layout.container level '[' ']' (items.map fun d => d.textAt layout (level + 1))

/-- An object with the members in the order given. -/
def object (members : List (String × Document)) : Document where
  textAt layout level :=
    layout.container level '\x7b' '\x7d'
      (members.map fun (key, d) => layout.member key (d.textAt layout (level + 1)))

/-- The text of a document. -/
def text (layout : Layout) (d : Document) : List Char :=
  d.textAt layout 0

/-- The text on one line. -/
def compact (d : Document) : String :=
  String.ofList (d.text .compact)

/-- The text with one item or member to a line. -/
def indented (d : Document) : String :=
  String.ofList (d.text .indented)

end Document

end FilterTemplate.Json
