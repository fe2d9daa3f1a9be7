/-
  FilterTemplate.Query.Call

  The calls that make up a query, one after the other. A call is allowed only
  at a certain stage: where a condition is due, or where one is complete and a
  connective, a closing or a build may follow. `checkAll` finds the first call
  that comes at the wrong stage.
-/
import FilterTemplate.Query.Basic

namespace FilterTemplate

/-- One call in the construction of a query. -/
inductive Call where
  | compare (path : String) (operator : Operator) (value : Value)
  /-- Looks for a value in any of several fields; empty paths do not count. -/
  | search (paths : List String) (value : Value)
  /-- The field equals one of the values. -/
  | isIn (path : String) (values : List Value)
  /-- The field equals none of the values. -/
  | isNotIn (path : String) (values : List Value)
  /-- The field lies in a range, ends included. -/
  | between (path : String) (low high : Value)
  /-- The field lies outside a range. -/
  | notBetween (path : String) (low high : Value)
  /-- The field is empty. -/
  | isNull (path : String)
  /-- The field is not empty. -/
  | isNotNull (path : String)
  /-- A text as it is. -/
  | custom (text : String)
  /-- Opens a group that a later call closes. -/
  | openGroup
  /-- A group of calls. -/
  | group (calls : List Call)
  | and
  | or
  | closeGroup
  /-- Builds the query as it stands. -/
  | build
  /-- Renders the query as it stands. -/
  | buildWith (render : Renderer)

/-- What may follow in a query. -/
inductive Stage where
  /-- A condition has to follow. -/
  | condition
  /-- A condition is complete. -/
  | complete
  deriving DecidableEq

namespace Call

/-! ## Comparisons by name -/

/-- `name='Alice'` -/
def equal (path : String) (value : Value) : Call :=
  .compare path .equal value

/-- `age!=30` -/
def notEqual (path : String) (value : Value) : Call :=
  .compare path .notEqual value

/-- `age>21` -/
def greaterThan (path : String) (value : Value) : Call :=
  .compare path .greaterThan value

/-- `age>=18` -/
def greaterThanOrEqual (path : String) (value : Value) : Call :=
  .compare path .greaterThanOrEqual value

/-- `age<50` -/
def lessThan (path : String) (value : Value) : Call :=
  .compare path .lessThan value

/-- `age<=65` -/
def lessThanOrEqual (path : String) (value : Value) : Call :=
  .compare path .lessThanOrEqual value

/-- `name~'Joh'`, a match with wildcards -/
def like (path : String) (value : Value) : Call :=
  .compare path .like value

/-- `name!~'Doe'` -/
def notLike (path : String) (value : Value) : Call :=
  .compare path .notLike value

/-- `tags?='admin'`, at least one element equals -/
def anyEqual (path : String) (value : Value) : Call :=
  .compare path .anyEqual value

/-- `tags?!='user'` -/
def anyNotEqual (path : String) (value : Value) : Call :=
  .compare path .anyNotEqual value

/-- `numbers?>21` -/
def anyGreaterThan (path : String) (value : Value) : Call :=
  .compare path .anyGreaterThan value

/-- `numbers?>=18` -/
def anyGreaterThanOrEqual (path : String) (value : Value) : Call :=
  .compare path .anyGreaterThanOrEqual value

/-- `numbers?<50` -/
def anyLessThan (path : String) (value : Value) : Call :=
  .compare path .anyLessThan value

/-- `numbers?<=65` -/
def anyLessThanOrEqual (path : String) (value : Value) : Call :=
  .compare path .anyLessThanOrEqual value

/-- `tags?~'sports'` -/
def anyLike (path : String) (value : Value) : Call :=
  .compare path .anyLike value

/-- `tags?!~'sports'` -/
def anyNotLike (path : String) (value : Value) : Call :=
  .compare path .anyNotLike value

/-! ## Stages -/

mutual

/-- The stage after a call, or the place of the first call within it that comes
at the wrong stage. A group has to end with a complete condition. -/
def check : Stage → Call → Except (List Nat) Stage
  | .condition, .group calls =>
    match checkAll .condition 0 calls with
    | .error place => .error place
    | .ok .condition => .error [calls.length]
    | .ok .complete => .ok .complete
  | .condition, .openGroup => .ok .condition
  | .condition, .and => .error []
  | .condition, .or => .error []
  | .condition, .closeGroup => .error []
  | .condition, .build => .error []
  | .condition, .buildWith _ => .error []
  | .condition, _ => .ok .complete
  | .complete, .and => .ok .condition
  | .complete, .or => .ok .condition
  | .complete, .closeGroup => .ok .complete
  | .complete, .build => .ok .complete
  | .complete, .buildWith _ => .ok .complete
  | .complete, _ => .error []

/-- The stage after calls in a row, the first of which is counted as `index`. -/
def checkAll : Stage → (index : Nat) → List Call → Except (List Nat) Stage
  | stage, _, [] => .ok stage
  | stage, index, call :: calls =>
    match check stage call with
    | .error place => .error (index :: place)
    | .ok stage => checkAll stage (index + 1) calls

end

end Call

end FilterTemplate
