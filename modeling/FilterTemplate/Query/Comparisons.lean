/-
  FilterTemplate.Query.Comparisons

  What calls name and bind: the comparisons they make, one for each value that
  is bound, the paths of their null checks, and the texts they write as they
  are. Groups count with their calls in place.
-/
import FilterTemplate.Query.Call

namespace FilterTemplate.Call

mutual

/-- The comparisons of a call in order. -/
def comparisons : Call → List Comparison
  | .compare path op value => [⟨path, op, value⟩]
  | .search paths value => (paths.filter (· ≠ "")).map (⟨·, .like, value⟩)
  | .isIn path values => values.map (⟨path, .equal, ·⟩)
  | .isNotIn path values => values.map (⟨path, .notEqual, ·⟩)
  | .between path low high =>
    [⟨path, .greaterThanOrEqual, low⟩, ⟨path, .lessThanOrEqual, high⟩]
  | .notBetween path low high => [⟨path, .lessThan, low⟩, ⟨path, .greaterThan, high⟩]
  | .group calls => comparisonsOfAll calls
  | _ => []

/-- The comparisons of calls in a row. -/
def comparisonsOfAll : List Call → List Comparison
  | [] => []
  | call :: calls => comparisons call ++ comparisonsOfAll calls

end

mutual

/-- The paths that a call checks for being null or not. -/
def checkedPaths : Call → List String
  | .isNull path => [path]
  | .isNotNull path => [path]
  | .group calls => checkedPathsOfAll calls
  | _ => []

/-- The paths that calls in a row check for being null or not. -/
def checkedPathsOfAll : List Call → List String
  | [] => []
  | call :: calls => checkedPaths call ++ checkedPathsOfAll calls

end

mutual

/-- The texts that a call writes as they are. -/
def customTexts : Call → List String
  | .custom text => [text]
  | .group calls => customTextsOfAll calls
  | _ => []

/-- The texts that calls in a row write as they are. -/
def customTextsOfAll : List Call → List String
  | [] => []
  | call :: calls => customTexts call ++ customTextsOfAll calls

end

end FilterTemplate.Call
