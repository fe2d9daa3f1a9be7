/-
  FilterTemplate.Query.Basic

  A query under construction: the template written so far, the values bound
  by it, the number of uses of each path, the groups still open and the place
  of the first group closed without being open. The parameter of a comparison
  is named by its path and the number of uses of that path.
-/
import FilterTemplate.Operator
import FilterTemplate.Query.Prepared

namespace FilterTemplate

/-- One comparison of a field with a value. -/
structure Comparison where
  path : String
  operator : Operator
  value : Value

/-- A query under construction. -/
structure Query where
  template : String
  values : Params
  uses : Table Nat
  depth : Nat
  unmatchedClose : Option Nat

/-- Why a query cannot be built. -/
inductive BuildError where
  /-- Some groups are still open. -/
  | unclosedGroup (depth : Nat)
  /-- A group was closed at an offset, in bytes, where none was open. -/
  | unmatchedClose (offset : Nat)
  deriving DecidableEq

/-- The message of a build error. -/
def BuildError.message : BuildError → String
  | .unclosedGroup depth => "Unclosed groups: " ++ toString depth ++ " group(s) still open"
  | .unmatchedClose offset =>
    "Unmatched close: no open group to close at offset " ++ toString offset

namespace Query

/-- The query with nothing in it. -/
def empty : Query :=
  ⟨"", .empty, .empty, 0, none⟩

instance : Inhabited Query := ⟨empty⟩

/-! ## Writing -/

/-- Writes a text at the end of the template. -/
def append (q : Query) (text : String) : Query :=
  { q with template := q.template ++ text }

/-- How often a path has been compared. -/
def useCount (q : Query) (path : String) : Nat :=
  (q.uses.get? path).getD 0

/-- The name of the parameter that the `count`-th comparison of a path binds. -/
def paramName (path : String) (count : Nat) : String :=
  path ++ toString count

/-- Counts one more use of a path and binds a value to the name of that use. -/
def bind (q : Query) (path : String) (value : Value) : Query :=
  let count := q.useCount path + 1
  { q with
    uses := q.uses.insert path count
    values := q.values.insert (paramName path count) value }

/-- The text of a comparison that is its path's `count`-th. -/
def comparisonText (path : String) (op : Operator) (count : Nat) : String :=
  path ++ op.token ++ String.ofList (placeholder (paramName path count))

/-- Writes a comparison and binds its value. -/
def compare (q : Query) (c : Comparison) : Query :=
  let q := q.bind c.path c.value
  q.append (comparisonText c.path c.operator (q.useCount c.path))

/-- Writes comparisons with `glue` between them. -/
def compareAll (glue : String) (q : Query) : List Comparison → Query
  | [] => q
  | c :: rest => rest.foldl (fun q c => (q.append glue).compare c) (q.compare c)

/-- Writes comparisons with `glue` between them, in parentheses that are no group. -/
def compareEnclosed (glue : String) (q : Query) (cs : List Comparison) : Query :=
  ((q.append "(").compareAll glue cs).append ")"

/-! ## Groups -/

/-- Opens a group. -/
def openGroup (q : Query) : Query :=
  { q with template := q.template ++ "(", depth := q.depth + 1 }

/-- Closes the innermost group. Where none is open the place is kept, unless
one is kept already. -/
def closeGroup (q : Query) : Query :=
  { q with
    template := q.template ++ ")"
    depth := q.depth - 1
    unmatchedClose :=
      if q.depth = 0 then some (q.unmatchedClose.getD q.template.utf8ByteSize)
      else q.unmatchedClose }

/-! ## Finishing -/

/-- What keeps the query from being built, a group closed without being open
before groups left open. -/
def imbalance? (q : Query) : Option BuildError :=
  match q.unmatchedClose with
  | some offset => some (.unmatchedClose offset)
  | none => if q.depth = 0 then none else some (.unclosedGroup q.depth)

/-- The template and the values so far. -/
def build (q : Query) : Except BuildError Prepared :=
  match q.imbalance? with
  | some e => .error e
  | none => .ok ⟨q.template, q.values⟩

/-- What a renderer makes of the template and the values so far. -/
def buildWith (q : Query) (render : Renderer) : Except BuildError String :=
  match q.imbalance? with
  | some e => .error e
  | none => .ok (render q.template (some q.values))

/-! ## Laws -/

@[simp] theorem template_append (q : Query) (text : String) :
    (q.append text).template = q.template ++ text := rfl

/-- Binding counts the use of its path and of no other. -/
theorem useCount_bind (q : Query) (path other : String) (value : Value) :
    (q.bind path value).useCount other =
      if other = path then q.useCount path + 1 else q.useCount other := by
  simp only [useCount, bind, Table.get?_insert]
  split <;> simp

/-- A comparison writes its path, its operator and a placeholder of its own. -/
theorem template_compare (q : Query) (c : Comparison) :
    (q.compare c).template =
      q.template ++ comparisonText c.path c.operator (q.useCount c.path + 1) := by
  simp only [compare, useCount_bind, template_append]
  simp [bind]

end Query

end FilterTemplate
