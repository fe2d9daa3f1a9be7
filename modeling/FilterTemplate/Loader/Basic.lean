/-
  FilterTemplate.Loader.Basic

  Collecting values from files and from `KEY=VALUE` pairs. A JSON file counts
  as a whole; lines and pairs are taken one after the other, and what came
  before a bad one stays set.
-/
import FilterTemplate.Event
import FilterTemplate.Loader.FileName
import FilterTemplate.Params.Basic
import FilterTemplate.Text.Lines
import FilterTemplate.Value.Reading

namespace FilterTemplate

/-! ## Errors -/

/-- Why a file has no text. -/
inductive ReadFailure where
  | notFound
  | notUtf8
  /-- Any other failure, with its reason. -/
  | other (reason : String)

/-- The reason of a failure. -/
def ReadFailure.reason : ReadFailure → String
  | .notFound => "No such file or directory (os error 2)"
  | .notUtf8 => "stream did not contain valid UTF-8"
  | .other reason => reason

/-- Why values cannot be loaded. -/
inductive LoadError where
  | unreadable (failure : ReadFailure)
  /-- The text of a JSON file is not an object of values. -/
  | notParams (error : Json.ReadError)
  /-- The line with this number, from one, is no pair. -/
  | badLine (number : Nat)
  /-- The text is no pair. -/
  | badPair (text : String)

/-- The message of a load error; one about JSON ends in a word on the cause. -/
def LoadError.message : LoadError → String
  | .unreadable failure => "Failed to read the params file: " ++ failure.reason
  | .notParams error =>
    "Failed to parse the params file as JSON: " ++
      match error with
      | .malformed => "malformed text"
      | .truncated => "the text ends too early"
      | .shape e => e.message
  | .badLine number =>
    "Invalid params: malformed line " ++ toString number ++ " (expected KEY=VALUE)"
  | .badPair text => "Invalid params: expected KEY=VALUE, got '" ++ text ++ "'"

/-! ## Pairs -/

/-- The key and the value of a text with an equals sign, blanks around them
removed, unless the key is empty. The first equals sign counts. -/
def assignment? (s : List Char) : Option (List Char × List Char) :=
  match s.dropWhile (· ≠ '=') with
  | [] => none
  | _ :: value =>
    let key := Text.trim (s.takeWhile (· ≠ '='))
    if key = [] then none else some (key, Text.trim value)

/-- Sets a key to the value of a text. -/
def Params.assign (p : Params) (key value : List Char) : Params :=
  p.insert (String.ofList key) (.ofText value)

/-! ## Loading -/

/-- The values collected so far and what was reported on the way. -/
structure Loader where
  params : Params
  log : List Event

namespace Loader

/-- Nothing collected yet. -/
def empty : Loader :=
  ⟨.empty, []⟩

/-- A line that sets nothing: a blank one, or a comment. -/
def isIgnored (line : List Char) : Bool :=
  match Text.trim line with
  | [] => true
  | c :: _ => c == '#'

/-- Sets the pairs of lines up to the first bad one; the next line has the given number. -/
def assignLines (p : Params) : (number : Nat) → List (List Char) → Params × Option LoadError
  | _, [] => (p, none)
  | number, line :: rest =>
    if isIgnored line then assignLines p (number + 1) rest
    else
      match assignment? (Text.trim line) with
      | some (key, value) => assignLines (p.assign key value) (number + 1) rest
      | none => (p, some (.badLine number))

/-- Loads the text of a file. -/
def loadText (l : Loader) (path : String) (text : String) : Loader × Option LoadError :=
  if FileName.isJson path then
    match Params.ofText text.toList with
    | .ok params =>
      ({ params := l.params.extend params.entries
         log := l.log ++ [.loaded params.size path] }, none)
    | .error e => (l, some (.notParams e))
  else
    let (params, error) := assignLines l.params 1 (Text.lines text.toList)
    ({ l with params := params }, error)

/-- Loads a file, given its content or why there is none. -/
def loadFile (l : Loader) (path : String) (content : Except ReadFailure ByteArray) :
    Loader × Option LoadError :=
  match content with
  | .error failure => (l, some (.unreadable failure))
  | .ok bytes =>
    match String.fromUTF8? bytes with
    | some text => l.loadText path text
    | none => (l, some (.unreadable .notUtf8))

/-- Sets pairs up to the first bad one and reports each. -/
def applyPairs (l : Loader) : List String → Loader × Option LoadError
  | [] => (l, none)
  | pair :: rest =>
    match assignment? pair.toList with
    | some (key, value) =>
      let name := String.ofList key
      let v := Value.ofText value
      applyPairs ⟨l.params.insert name v, l.log ++ [.paramSet name v.typeName]⟩ rest
    | none => (l, some (.badPair pair))

end Loader

end FilterTemplate
