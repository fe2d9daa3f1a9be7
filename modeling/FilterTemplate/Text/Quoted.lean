/-
  FilterTemplate.Text.Quoted

  Single-quoted text. A quote inside the text is written with a backslash
  before it; backslashes of the text itself are written as they are.
  `unescape` takes the backslash before each quote away again, so quoting
  loses nothing. A text that is quoted again and again has each of its quotes
  behind as many backslashes.
-/

namespace FilterTemplate.Text

/-- The text with a backslash put before every single quote. -/
def escapeQuotes : List Char → List Char
  | [] => []
  | c :: s => if c = '\'' then '\\' :: '\'' :: escapeQuotes s else c :: escapeQuotes s

/-- The text between single quotes, its own quotes escaped. -/
def quoted (s : List Char) : List Char :=
  '\'' :: (escapeQuotes s ++ ['\''])

/-- The text with so many backslashes put before every single quote. -/
def withBackslashes (count : Nat) (s : List Char) : List Char :=
  s.flatMap fun c => if c = '\'' then List.replicate count '\\' ++ [c] else [c]

/-- The text without the one backslash right before each single quote. -/
def unescapeQuotes : List Char → List Char
  | [] => []
  | '\\' :: '\'' :: s => '\'' :: unescapeQuotes s
  | c :: s => c :: unescapeQuotes s

/-- What a quoted text quotes: the ends go, and the escapes inside. -/
def unquoted (s : List Char) : List Char :=
  unescapeQuotes s.tail.dropLast

/-! ## Scanning -/

/-- Splits a text behind an opening quote at the closing one, which is the
first quote that does not come right after a backslash; `previous` is the
character before the text. -/
def splitAtClose (previous : Char) : List Char → Option (List Char × List Char)
  | [] => none
  | c :: s =>
    if c = '\'' ∧ previous ≠ '\\' then some ([], s)
    else (splitAtClose c s).map fun (content, rest) => (c :: content, rest)

/-- The text with nothing left between the quotes of each quoted part. Inside
such a part, `previous` is the character before. -/
def collapseFrom : (previous : Option Char) → List Char → List Char
  | _, [] => []
  | none, c :: s =>
    if c = '\'' then c :: collapseFrom (some c) s else c :: collapseFrom none s
  | some previous, c :: s =>
    if c = '\'' ∧ previous ≠ '\\' then c :: collapseFrom none s else collapseFrom (some c) s

/-- The text with every quoted part emptied. -/
def collapseQuoted (s : List Char) : List Char :=
  collapseFrom none s

example : collapseQuoted "a='x\\'y' || b=''".toList = "a='' || b=''".toList := by decide +kernel

/-! ## Laws -/

/-- Escaping adds one character for each quote. -/
theorem length_escapeQuotes (s : List Char) :
    (escapeQuotes s).length = s.length + s.count '\'' := by
  induction s with
  | nil => rfl
  | cons c s ih =>
    by_cases h : c = '\''
    · subst h; simp [escapeQuotes, ih]; omega
    · simp [escapeQuotes, h, ih]; omega

/-- A text without quotes is its own escaped form. -/
theorem escapeQuotes_eq_self {s : List Char} (h : '\'' ∉ s) : escapeQuotes s = s := by
  induction s with
  | nil => rfl
  | cons c s ih =>
    simp only [List.mem_cons, not_or] at h
    simp [escapeQuotes, Ne.symm h.1, ih h.2]

end FilterTemplate.Text
