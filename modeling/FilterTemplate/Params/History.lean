/-
  FilterTemplate.Params.History

  What was done to a table. A table starts empty and is changed step by step:
  one name is set, a list of names is set, or the table is replaced by one that
  is collected from a list or read from a text. `insertions` is the record of
  the same steps, in which nothing is looked up: the names that were set since
  the table was last replaced, as often as they were set.
-/
import FilterTemplate.Params.Basic

namespace FilterTemplate.Params

/-! ## Members of a text -/

/-- Takes in the next member of an object behind those before it. -/
def appendMember (budget : Nat) (before : List (String × Value)) :
    Json.Reader (List (String × Value)) := fun s => do
  let (name, s) ← Json.Reader.quoteThen Json.Reader.string s
  let s ← Json.Reader.colon s
  let (j, s) ← Json.Reader.value budget s
  return (before ++ [(name, .ofJson j)], s)

/-- The members of the text of a table in their order, repeated names among them. -/
def membersOfText (s : List Char) : Except Json.ReadError (List (String × Value)) :=
  Json.whole (Json.Reader.expectMembers expected (appendMember (Json.Reader.nestingLimit - 1)) []) s

/-! ## Steps -/

/-- A step that changes a table. -/
inductive Step where
  | insert (name : String) (value : Value)
  | extend (entries : List (String × Value))
  | collect (entries : List (String × Value))
  /-- A text that cannot be read changes nothing. -/
  | parse (text : List Char)

/-- The table after a step. -/
def Step.apply (p : Params) : Step → Params
  | .insert name value => (p.exchange name value).2
  | .extend entries => p.extend entries
  | .collect entries => Table.ofList entries
  | .parse text =>
    match ofText text with
    | .ok q => q
    | .error _ => p

/-- The table that steps make, from an empty one. -/
def run (steps : List Step) : Params :=
  steps.foldl Step.apply Table.empty

/-! ## Records -/

/-- The insertions after a step. -/
def Step.record (before : List (String × Value)) : Step → List (String × Value)
  | .insert name value => before ++ [(name, value)]
  | .extend entries => before ++ entries
  | .collect entries => entries
  | .parse text =>
    match membersOfText text with
    | .ok entries => entries
    | .error _ => before

/-- The insertions since the table was last replaced. -/
def insertions (steps : List Step) : List (String × Value) :=
  steps.foldl Step.record []

end FilterTemplate.Params
