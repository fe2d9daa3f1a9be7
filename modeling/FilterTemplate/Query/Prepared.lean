/-
  FilterTemplate.Query.Prepared

  A finished query: a template with the values of its placeholders. It can be
  rendered, written as JSON and read back; a text may give the two fields as an
  object, in any order and among others, or as an array.
-/
import FilterTemplate.Json.Skipping
import FilterTemplate.Substitution

namespace FilterTemplate

/-- A template with its values. -/
structure Prepared where
  template : String
  values : Params

namespace Prepared

/-- The filter of a prepared query by the given renderer. -/
def renderWith (p : Prepared) (render : Renderer) : String :=
  render p.template (some p.values)

/-- The filter of a prepared query. -/
def render (p : Prepared) : String :=
  p.renderWith substitute

/-- Equality of template and values. -/
def equal (p q : Prepared) : Bool :=
  p.template == q.template && p.values.equal q.values

/-! ## JSON text -/

/-- The JSON object of a prepared query. -/
def toJson (p : Prepared) : Json.Document :=
  .object [("raw", .ofJson (.string p.template)), ("values", p.values.toJson)]

/-- The fields of a prepared query read so far. -/
structure Fields where
  template : Option String
  values : Option Params

/-- What a message calls the object of a prepared query. -/
def expected : String :=
  "struct RawQuery"

/-- The template field of a text. -/
def readTemplate : Json.Reader String :=
  Json.Reader.expectString "a string"

/-- The values field of a text, the second level of nesting. -/
def readValues : Json.Reader Params :=
  Params.read (Json.Reader.nestingLimit - 2)

/-- Takes in the next member of an object. -/
def member (fields : Fields) : Json.Reader Fields := fun s => do
  let (name, s) ← Json.Reader.quoteThen Json.Reader.string s
  if name = "raw" then
    if fields.template.isSome then .error (.shape (.duplicateField name))
    else
      let s ← Json.Reader.colon s
      let (template, s) ← readTemplate s
      return (⟨some template, fields.values⟩, s)
  else if name = "values" then
    if fields.values.isSome then .error (.shape (.duplicateField name))
    else
      let s ← Json.Reader.colon s
      let (values, s) ← readValues s
      return (⟨fields.template, some values⟩, s)
  else
    let s ← Json.Reader.colon s
    let s ← Json.Reader.skipValue s
    return (fields, s)

/-- The prepared query of an object's fields, which both have to be there. -/
def ofFields (fields : Fields) : Except Json.ReadError Prepared :=
  match fields.template, fields.values with
  | none, _ => .error (.shape (.missingField "raw"))
  | some _, none => .error (.shape (.missingField "values"))
  | some template, some values => .ok ⟨template, values⟩

/-- Finds the next item of an array of the two fields, of which `count` are read. -/
def dueItem (count : Nat) (s : List Char) : Except Json.ReadError (List Char) :=
  match Json.Reader.skipSpace s with
  | [] => .error .truncated
  | c :: rest =>
    if c = ']' then .error (.shape (.tooShort count (expected ++ " with 2 elements")))
    else if count = 0 then .ok (c :: rest)
    else if c = ',' then
      match Json.Reader.skipSpace rest with
      | [] => .error .truncated
      | c :: rest => if c = ']' then .error .malformed else .ok (c :: rest)
    else .error .malformed

/-- An array of the two fields behind its opening mark. -/
def readItems : Json.Reader Prepared := fun s => do
  let s ← dueItem 0 s
  let (template, s) ← readTemplate s
  let s ← dueItem 1 s
  let (values, s) ← readValues s
  match Json.Reader.skipSpace s with
  | [] => .error .truncated
  | c :: rest => if c = ']' then return (⟨template, values⟩, rest) else .error .malformed

/-- A prepared query, after white space. -/
def read : Json.Reader Prepared := fun s =>
  match Json.Reader.skipSpace s with
  | '[' :: rest => readItems rest
  | s => do
    let (fields, rest) ← Json.Reader.expectMembers expected member ⟨none, none⟩ s
    let p ← ofFields fields
    return (p, rest)

/-- The prepared query of a text. -/
def ofText (s : List Char) : Except Json.ReadError Prepared :=
  Json.whole read s

end Prepared

end FilterTemplate
