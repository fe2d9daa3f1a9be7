/-
  FilterTemplate.Query.Outline

  What a template shows of the calls that wrote it: the marks it is made of.
  The marks leave out the values and do not tell whether a group was made by
  one call or by several.
-/
import FilterTemplate.Query.Comparisons

namespace FilterTemplate

/-- A mark of a template. -/
inductive Mark where
  | opened
  | closed
  /-- An empty pair of parentheses. -/
  | empty
  | and
  | or
  | isNull (path : String)
  | isNotNull (path : String)
  | compared (path : String) (operator : Operator)
  | custom (text : String)
  deriving DecidableEq

namespace Mark

/-- The marks of comparisons with a connective between them. -/
def connected (connective : Mark) : List Comparison → List Mark
  | [] => []
  | c :: rest =>
    .compared c.path c.operator ::
      rest.flatMap fun c => [connective, .compared c.path c.operator]

/-- The marks of comparisons in parentheses. -/
def enclosed (connective : Mark) (cs : List Comparison) : List Mark :=
  if cs.isEmpty then [.empty] else .opened :: connected connective cs ++ [.closed]

end Mark

namespace Call

mutual

/-- The marks that a call leaves. -/
def outline : Call → List Mark
  | .compare path op _ => [.compared path op]
  | .search paths value => Mark.enclosed .or (comparisons (.search paths value))
  | .isIn path values => Mark.enclosed .or (comparisons (.isIn path values))
  | .isNotIn path values => Mark.enclosed .and (comparisons (.isNotIn path values))
  | .between path low high => Mark.enclosed .and (comparisons (.between path low high))
  | .notBetween path low high => Mark.enclosed .or (comparisons (.notBetween path low high))
  | .isNull path => [.isNull path]
  | .isNotNull path => [.isNotNull path]
  | .custom text => [.custom text]
  | .openGroup => [.opened]
  | .group calls => .opened :: outlineAll calls ++ [.closed]
  | .and => [.and]
  | .or => [.or]
  | .closeGroup => [.closed]
  | .build => []
  | .buildWith _ => []

/-- The marks that calls in a row leave. -/
def outlineAll : List Call → List Mark
  | [] => []
  | call :: calls => outline call ++ outlineAll calls

end

end Call

end FilterTemplate
