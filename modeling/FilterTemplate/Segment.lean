/-
  FilterTemplate.Segment

  A template as its parts: texts and placeholders. `fill` gives each
  placeholder the literal of its own value, in which only the names that come
  later in the table are filled; this is the part-by-part reading of a
  substitution that goes over the whole text name by name.
-/
import FilterTemplate.Substitution

namespace FilterTemplate

/-- A part of a template. -/
inductive Segment where
  | text (content : List Char)
  | placeholder (name : String)

namespace Segment

/-- A part as it stands in the template. -/
def source : Segment → List Char
  | .text content => content
  | .placeholder name => FilterTemplate.placeholder name

/-- The template that parts make. -/
def sources (parts : List Segment) : List Char :=
  parts.flatMap source

/-- What the placeholder of a name becomes. -/
def fillName (name : String) : List (String × Value) → List Char
  | [] => FilterTemplate.placeholder name
  | (k, v) :: rest => if k = name then substituteEntries rest v.literal else fillName name rest

/-- What a part becomes. -/
def fill (entries : List (String × Value)) : Segment → List Char
  | .text content => content
  | .placeholder name => fillName name entries

/-- What the template of parts becomes. -/
def fillAll (entries : List (String × Value)) (parts : List Segment) : List Char :=
  parts.flatMap (fill entries)

/-- The part can be told from its neighbours: a text opens no placeholder, and
a name has no braces. -/
def IsPlain : Segment → Prop
  | .text content => '\x7b' ∉ content
  | .placeholder name => '\x7b' ∉ name.toList ∧ '\x7d' ∉ name.toList

end Segment

end FilterTemplate
