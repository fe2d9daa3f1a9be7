/-
  FilterTemplate.Loader.Members

  The members of an object as pairs and as lines of a file. A pair gives the
  name as it is and the value as it is written in the object. A name can stand
  in a pair if reading the pair gives it back, and a pair can stand on a line if
  it does not run over it and is no comment.
-/
import FilterTemplate.Json.Grammar
import FilterTemplate.Loader.Basic

namespace FilterTemplate

/-! ## Lines -/

/-- What ends a line. -/
inductive Text.IsLineEnd : List Char → Prop where
  | feed : IsLineEnd ['\n']
  | returnFeed : IsLineEnd ['\r', '\n']

/-- The text is made of the lines; the last of them may do without an end. -/
inductive Text.HasLines : List (List Char) → List Char → Prop where
  | nil : HasLines [] []
  | last (line : List Char) : HasLines [line] line
  | cons {line ending text : List Char} {rest : List (List Char)} : IsLineEnd ending →
    HasLines rest text → HasLines (line :: rest) (line ++ (ending ++ text))

/-! ## Members -/

namespace Json.MemberText

/-- The member as a pair. -/
def pair (m : MemberText) : List Char :=
  m.name.toList ++ '=' :: m.valueText

/-- The name is not empty, no blank stands at its ends, and no equals sign is in it. -/
structure IsAssignable (m : MemberText) : Prop where
  name_ne : m.name.toList ≠ []
  trim_name : Text.trim m.name.toList = m.name.toList
  no_equals : '=' ∉ m.name.toList

/-- The pair stands on one line, which is no comment. -/
structure FitsLine (m : MemberText) : Prop where
  no_feed_name : '\n' ∉ m.name.toList
  no_feed_value : '\n' ∉ m.valueText
  no_comment : m.name.toList.head? ≠ some '#'

end Json.MemberText

end FilterTemplate
