/-
  FilterTemplate.Substitution

  Filling a template: each placeholder `{:name}` gives way to the literal of
  the value of that name. Names are taken one after the other in the order of
  the table, each in all places of the text as it then stands, so a literal
  that holds the placeholder of a later name is filled in turn.
-/
import FilterTemplate.Params.Basic
import FilterTemplate.Text.Replace
import FilterTemplate.Value.Literal

namespace FilterTemplate

/-- The placeholder of a name. -/
def placeholder (name : String) : List Char :=
  '\x7b' :: ':' :: (name.toList ++ ['\x7d'])

/-- The text with the placeholders of the entries filled, one entry after the other. -/
def substituteEntries : List (String × Value) → List Char → List Char
  | [], s => s
  | (name, v) :: rest, s => substituteEntries rest (Text.replaceAll (placeholder name) v.literal s)

/-- The template with its placeholders filled, or as it is when there are no values at all. -/
def substitute (template : String) : Option Params → String
  | none => template
  | some params => String.ofList (substituteEntries params.entries template.toList)

/-- Turns a template and its values into a filter. -/
abbrev Renderer : Type :=
  String → Option Params → String

end FilterTemplate
