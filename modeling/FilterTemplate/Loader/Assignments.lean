/-
  FilterTemplate.Loader.Assignments

  What a text assigns. A text is an assignment if it has an equals sign and the
  key before the first one is not blank. Of the lines of a file those that are
  blank or comments are passed over. Lines and pairs may be written with other
  blanks around the key and the value, and lines with other ends.
-/
import FilterTemplate.Loader.Basic

namespace FilterTemplate

/-! ## Assignments -/

/-- The text assigns the value to the name. -/
inductive Assigns : List Char → String × Value → Prop where
  | intro {key value : List Char} : '=' ∉ key → Text.trim key ≠ [] →
    Assigns (key ++ '=' :: value) (String.ofList (Text.trim key), .ofText value)

/-- The text assigns some value to some name. -/
def IsAssignment (s : List Char) : Prop :=
  ∃ e, Assigns s e

/-- The loader after pairs that assign the entries. -/
def Loader.setAll (l : Loader) (entries : List (String × Value)) : Loader where
  params := l.params.extend entries
  log := l.log ++ entries.map fun e => .paramSet e.1 e.2.typeName

/-! ## Lines -/

/-- The line is blank, or its first character that is not blank starts a comment. -/
def IsPassedOver (line : List Char) : Prop :=
  line.all Text.isBlank = true ∨ line.find? (fun c => !Text.isBlank c) = some '#'

instance : DecidablePred IsPassedOver := fun _ => instDecidableOr

/-- The lines, as they are, without those that are passed over. -/
def keptLines (lines : List (List Char)) : List (List Char) :=
  lines.filter fun line => ¬ IsPassedOver line

/-! ## Blanks -/

/-- The texts differ in the blanks at their ends, or around the first equals
sign, at most. -/
inductive SameButBlanks : List Char → List Char → Prop where
  | ends {s t : List Char} : Text.trim s = Text.trim t → SameButBlanks s t
  | sides {key key' value value' : List Char} : '=' ∉ key → '=' ∉ key' →
    Text.trim key = Text.trim key' → Text.trim value = Text.trim value' →
    SameButBlanks (key ++ '=' :: value) (key' ++ '=' :: value')

/-- The text with a carriage return put before every line feed. -/
def Text.withReturns (s : List Char) : List Char :=
  s.flatMap fun c => if c = '\n' then ['\r', '\n'] else [c]

end FilterTemplate
