/-
  FilterTemplate.Query.Grammar

  The grammar of templates: conditions joined by connectives, where a condition
  is an atom, a filter in parentheses or an empty pair of parentheses. The
  atoms are the texts that the calls of a run wrote as single conditions.
-/
import FilterTemplate.Query.Session

namespace FilterTemplate

mutual

/-- A text is a filter over the given atoms. -/
inductive IsFilter (atom : List Char → Prop) : List Char → Prop where
  | condition {s : List Char} : IsCondition atom s → IsFilter atom s
  | and {s t : List Char} :
    IsFilter atom s → IsCondition atom t → IsFilter atom (s ++ " && ".toList ++ t)
  | or {s t : List Char} :
    IsFilter atom s → IsCondition atom t → IsFilter atom (s ++ " || ".toList ++ t)

/-- A text is a single condition over the given atoms. -/
inductive IsCondition (atom : List Char → Prop) : List Char → Prop where
  | atom {s : List Char} : atom s → IsCondition atom s
  | group {s : List Char} : IsFilter atom s → IsCondition atom ('(' :: s ++ [')'])
  | empty : IsCondition atom ['(', ')']

end

/-- The texts that comparisons write one after the other. -/
def Query.comparisonTexts (q : Query) : List Comparison → List String
  | [] => []
  | c :: rest =>
    comparisonText c.path c.operator (q.useCount c.path + 1) ::
      (q.bind c.path c.value).comparisonTexts rest

namespace Session

mutual

/-- The texts that a call writes as single conditions. -/
def atoms (s : Session) : Call → List String
  | .compare path op value => s.query.comparisonTexts [⟨path, op, value⟩]
  | .search paths value =>
    s.query.comparisonTexts ((paths.filter (· ≠ "")).map (⟨·, .like, value⟩))
  | .isIn path values => s.query.comparisonTexts (values.map (⟨path, .equal, ·⟩))
  | .isNotIn path values => s.query.comparisonTexts (values.map (⟨path, .notEqual, ·⟩))
  | .between path low high =>
    s.query.comparisonTexts [⟨path, .greaterThanOrEqual, low⟩, ⟨path, .lessThanOrEqual, high⟩]
  | .notBetween path low high =>
    s.query.comparisonTexts [⟨path, .lessThan, low⟩, ⟨path, .greaterThan, high⟩]
  | .isNull path => [path ++ "=''"]
  | .isNotNull path => [path ++ "!=''"]
  | .custom text => [text]
  | .group calls => atomsOfAll (s.update Query.openGroup) calls
  | _ => []

/-- The texts that calls in a row write as single conditions. -/
def atomsOfAll (s : Session) : List Call → List String
  | [] => []
  | call :: calls => atoms s call ++ atomsOfAll (perform s call) calls

end

end Session

end FilterTemplate
