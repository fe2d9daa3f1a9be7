/-
  FilterTemplate.Query.Desugaring

  Calls in terms of plain ones: groups and lists of comparisons become an
  opening, single comparisons with connectives and a closing; empty lists and
  null checks become texts.
-/
import FilterTemplate.Query.Comparisons

namespace FilterTemplate.Call

/-- Single comparisons with a connective between them. -/
def connected (connective : Call) : List Comparison → List Call
  | [] => []
  | c :: rest =>
    .compare c.path c.operator c.value ::
      rest.flatMap fun c => [connective, .compare c.path c.operator c.value]

/-- A group of single comparisons, or an empty pair of parentheses. -/
def enclosed (connective : Call) (cs : List Comparison) : List Call :=
  if cs.isEmpty then [.custom "()"] else .openGroup :: connected connective cs ++ [.closeGroup]

mutual

/-- A call in terms of plain ones. -/
def desugar : Call → List Call
  | .search paths value => enclosed .or (comparisons (.search paths value))
  | .isIn path values => enclosed .or (comparisons (.isIn path values))
  | .isNotIn path values => enclosed .and (comparisons (.isNotIn path values))
  | .between path low high => enclosed .and (comparisons (.between path low high))
  | .notBetween path low high => enclosed .or (comparisons (.notBetween path low high))
  | .isNull path => [.custom (path ++ "=''")]
  | .isNotNull path => [.custom (path ++ "!=''")]
  | .group calls => .openGroup :: desugarAll calls ++ [.closeGroup]
  | call => [call]

/-- Calls in a row in terms of plain ones. -/
def desugarAll : List Call → List Call
  | [] => []
  | call :: calls => desugar call ++ desugarAll calls

end

end FilterTemplate.Call
