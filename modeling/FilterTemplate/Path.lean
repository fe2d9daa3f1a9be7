/-
  FilterTemplate.Path

  Composing the paths of fields: segments joined by points, and modifiers that
  change what a comparison looks at.
-/

namespace FilterTemplate

/-- What a comparison looks at instead of the field itself. -/
inductive Modifier where
  /-- The text in lower case. -/
  | lower
  /-- Every element. -/
  | each
  /-- The number of elements. -/
  | length
  deriving DecidableEq

/-- A modifier as it stands behind a path. -/
def Modifier.text : Modifier → String
  | .lower => ":lower"
  | .each => ":each"
  | .length => ":length"

namespace Path

/-- A path with a modifier behind it. -/
def withModifier (path : String) (modifier : Modifier) : String :=
  path ++ modifier.text

/-- The path of a field within a field. -/
def join (segments : List String) : String :=
  String.intercalate "." segments

end Path

end FilterTemplate
