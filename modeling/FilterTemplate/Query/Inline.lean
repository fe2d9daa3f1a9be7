/-
  FilterTemplate.Query.Inline

  The filter of calls written directly, each comparison with the literal of its
  own value and without any placeholder or name.
-/
import FilterTemplate.Query.Comparisons

namespace FilterTemplate

/-- A comparison with its value in place. -/
def Comparison.inline (c : Comparison) : List Char :=
  c.path.toList ++ c.operator.token.toList ++ c.value.literal

/-- Comparisons with `glue` between them, their values in place. -/
def Comparison.inlineAll (glue : List Char) : List Comparison → List Char
  | [] => []
  | c :: rest => c.inline ++ rest.flatMap fun c => glue ++ c.inline

namespace Call

mutual

/-- The filter text of a call. -/
def inline : Call → List Char
  | .compare path op value => Comparison.inline ⟨path, op, value⟩
  | .search paths value =>
    '(' :: Comparison.inlineAll " || ".toList (comparisons (.search paths value)) ++ [')']
  | .isIn path values =>
    '(' :: Comparison.inlineAll " || ".toList (comparisons (.isIn path values)) ++ [')']
  | .isNotIn path values =>
    '(' :: Comparison.inlineAll " && ".toList (comparisons (.isNotIn path values)) ++ [')']
  | .between path low high =>
    '(' :: Comparison.inlineAll " && ".toList (comparisons (.between path low high)) ++ [')']
  | .notBetween path low high =>
    '(' :: Comparison.inlineAll " || ".toList (comparisons (.notBetween path low high)) ++ [')']
  | .isNull path => path.toList ++ "=''".toList
  | .isNotNull path => path.toList ++ "!=''".toList
  | .custom text => text.toList
  | .openGroup => ['(']
  | .group calls => '(' :: inlineAll calls ++ [')']
  | .and => " && ".toList
  | .or => " || ".toList
  | .closeGroup => [')']
  | .build => []
  | .buildWith _ => []

/-- The filter text of calls in a row. -/
def inlineAll : List Call → List Char
  | [] => []
  | call :: calls => inline call ++ inlineAll calls

end

end Call

end FilterTemplate
