/-
  FilterTemplate.Value.Reading

  The value that a text typed by a user stands for: what is in single quotes
  is a string as it stands, JSON is decoded, and anything else is a string.
  `retyped` is what becomes of a value whose literal is typed.
-/
import FilterTemplate.Json.Reader
import FilterTemplate.Text.Blank
import FilterTemplate.Value.Literal

namespace FilterTemplate.Value

/-- What stands between a single quote at the front and another at the end. -/
def betweenQuotes? : List Char → Option (List Char)
  | '\'' :: s => if s.getLast? = some '\'' then some s.dropLast else none
  | _ => none

/-- The value of a text without blanks around it. -/
def ofTrimmed (s : List Char) : Value :=
  match betweenQuotes? s with
  | some inner => .string (String.ofList inner)
  | none =>
    match Json.ofText s with
    | .ok j => .ofJson j
    | .error _ => .string (String.ofList s)

/-- The value of a text. -/
def ofText (s : List Char) : Value :=
  ofTrimmed (Text.trim s)

/-- The value of a value's literal. -/
def retyped (v : Value) : Value :=
  ofText v.literal

end FilterTemplate.Value
