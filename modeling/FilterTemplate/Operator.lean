/-
  FilterTemplate.Operator

  The comparison operators of the filter grammar: eight that compare a field,
  and eight that hold when at least one element of a multi-valued field
  compares so. Each has a token, a name and a tag, its spelling in JSON.
-/
import FilterTemplate.Json.Shape

namespace FilterTemplate

/-- A comparison operator. -/
inductive Operator where
  | equal
  | notEqual
  | greaterThan
  | greaterThanOrEqual
  | lessThan
  | lessThanOrEqual
  | like
  | notLike
  | anyEqual
  | anyNotEqual
  | anyGreaterThan
  | anyGreaterThanOrEqual
  | anyLessThan
  | anyLessThanOrEqual
  | anyLike
  | anyNotLike
  deriving DecidableEq

namespace Operator

/-- All operators in order. -/
def all : List Operator :=
  [.equal, .notEqual, .greaterThan, .greaterThanOrEqual, .lessThan, .lessThanOrEqual, .like,
    .notLike, .anyEqual, .anyNotEqual, .anyGreaterThan, .anyGreaterThanOrEqual, .anyLessThan,
    .anyLessThanOrEqual, .anyLike, .anyNotLike]

/-- What stands between the path and the value in a filter. -/
def token : Operator → String
  | .equal => "="
  | .notEqual => "!="
  | .greaterThan => ">"
  | .greaterThanOrEqual => ">="
  | .lessThan => "<"
  | .lessThanOrEqual => "<="
  | .like => "~"
  | .notLike => "!~"
  | .anyEqual => "?="
  | .anyNotEqual => "?!="
  | .anyGreaterThan => "?>"
  | .anyGreaterThanOrEqual => "?>="
  | .anyLessThan => "?<"
  | .anyLessThanOrEqual => "?<="
  | .anyLike => "?~"
  | .anyNotLike => "?!~"

/-- The name of an operator. -/
def name : Operator → String
  | .equal => "equal"
  | .notEqual => "notEqual"
  | .greaterThan => "greaterThan"
  | .greaterThanOrEqual => "greaterThanOrEqual"
  | .lessThan => "lessThan"
  | .lessThanOrEqual => "lessThanOrEqual"
  | .like => "like"
  | .notLike => "notLike"
  | .anyEqual => "anyEqual"
  | .anyNotEqual => "anyNotEqual"
  | .anyGreaterThan => "anyGreaterThan"
  | .anyGreaterThanOrEqual => "anyGreaterThanOrEqual"
  | .anyLessThan => "anyLessThan"
  | .anyLessThanOrEqual => "anyLessThanOrEqual"
  | .anyLike => "anyLike"
  | .anyNotLike => "anyNotLike"

/-- The spelling of an operator in JSON: its name with a capital. -/
def tag (op : Operator) : String :=
  match op.name.toList with
  | [] => ""
  | c :: cs => String.ofList (c.toUpper :: cs)

/-- The operator asks for at least one matching element. -/
def isAny (op : Operator) : Bool :=
  op.token.toList.head? == some '?'

/-! ## From text -/

/-- The operator with the given name or token. -/
def ofText? (s : String) : Option Operator :=
  all.find? fun op => op.name == s || op.token == s

/-- The message about a text that is neither a name nor a token. -/
def unknownMessage (s : String) : String :=
  "Unknown operator: '" ++ s ++ "'"

/-! ## JSON -/

/-- The JSON form of an operator. -/
def toJson (op : Operator) : Json :=
  .string op.tag

/-- The operator with a tag. -/
def ofTag (tag : String) : Except Json.ReadError Operator :=
  match all.find? fun op => op.tag == tag with
  | some op => .ok op
  | none => .error (.shape (.unknownName tag (all.map Operator.tag)))

/-- The operator of a JSON text that holds its tag, or an object whose one
member has the tag as its key and null as its value. -/
def read : Json.Reader Operator := fun s =>
  match Json.Reader.skipSpace s with
  | [] => .error .truncated
  | c :: s =>
    if c = '"' then do
      let (tag, s) ← Json.Reader.string s
      let op ← ofTag tag
      return (op, s)
    else if c = '\x7b' then do
      let (tag, s) ← Json.Reader.quoteThen Json.Reader.string (Json.Reader.skipSpace s)
      let op ← ofTag tag
      let s ← Json.Reader.colon s
      let s ← Json.Reader.expectNull "unit" s
      match Json.Reader.skipSpace s with
      | [] => .error .truncated
      | c :: s => if c = '\x7d' then return (op, s) else .error .malformed
    else .error .malformed

/-- The operator of a whole JSON text. -/
def ofJsonText (s : List Char) : Except Json.ReadError Operator :=
  Json.whole read s

end Operator

end FilterTemplate
