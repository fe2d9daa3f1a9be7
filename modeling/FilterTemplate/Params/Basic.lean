/-
  FilterTemplate.Params.Basic

  The named values of a template, in order of insertion, and their JSON text.
  The object of a JSON text fills a table member by member, so the order of
  the text is kept and a repeated name keeps its first place and last value.
-/
import FilterTemplate.Json.Shape
import FilterTemplate.Table
import FilterTemplate.Value.Basic

namespace FilterTemplate

/-- Named values in order of insertion. -/
abbrev Params : Type :=
  Table Value

namespace Params

/-- Equality of names, order and values. -/
def equal (p q : Params) : Bool :=
  Table.equalBy Value.equal p q

/-- The JSON object with the values in order. -/
def toJson (p : Params) : Json.Document :=
  .object (p.entries.map fun (name, v) => (name, .ofJson v.toJson))

/-- What a message calls the object of a table. -/
def expected : String :=
  "a map of parameter names to values"

/-- Sets the next member of an object. -/
def member (budget : Nat) (p : Params) : Json.Reader Params := fun s => do
  let (name, s) ← Json.Reader.quoteThen Json.Reader.string s
  let s ← Json.Reader.colon s
  let (j, s) ← Json.Reader.value budget s
  return (p.insert name (.ofJson j), s)

/-- The table of an object whose values nest containers no deeper than the budget. -/
def read (budget : Nat) : Json.Reader Params :=
  Json.Reader.expectMembers expected (member budget) Table.empty

/-- The table of a text, in which the object is one level of nesting. -/
def ofText (s : List Char) : Except Json.ReadError Params :=
  Json.whole (read (Json.Reader.nestingLimit - 1)) s

end Params

end FilterTemplate
