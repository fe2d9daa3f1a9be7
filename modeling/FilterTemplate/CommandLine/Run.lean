/-
  FilterTemplate.CommandLine.Run

  What the commands print.
-/
import FilterTemplate.CommandLine.Arguments
import FilterTemplate.Loader.Basic
import FilterTemplate.Query.Session

namespace FilterTemplate

/-- Why a command fails. -/
inductive CommandError where
  | load (error : LoadError)
  | build (error : BuildError)

/-- The message of a command error. -/
def CommandError.message : CommandError → String
  | .load error => error.message
  | .build error => "Failed to build the filter query: " ++ error.message

namespace CommandLine

/-- The name and version of the program. -/
def version : String :=
  "pbq 0.1.0"

/-- How the program is called. -/
def usage : String :=
  "Usage: pbq render --template <TEMPLATE> [--params <FILE>] [--param <KEY=VALUE>]...\n" ++
  "       pbq search --fields <FIELD>[,<FIELD>]... --value <VALUE> [--raw]\n" ++
  "       pbq operators [--json]"

/-! ## Operators -/

/-- A text with spaces behind it, up to the given width. -/
def padded (width : Nat) (s : String) : String :=
  s ++ String.ofList (List.replicate (width - s.length) ' ')

/-- A row of the table of operators. -/
def operatorRow (name token : String) : String :=
  padded 24 name ++ " " ++ token

/-- The table of operators. -/
def operatorTable : List String :=
  operatorRow "Operator" "Token" :: String.ofList (List.replicate 29 '-') ::
    Operator.all.map fun op => operatorRow op.name op.token

/-- The operators as JSON. -/
def operatorsJson : Json.Document :=
  .array (Operator.all.map fun op =>
    .object [("name", .ofJson (.string op.name)), ("token", .ofJson (.string op.token)),
      ("any", .ofJson (.bool op.isAny))])

/-! ## Commands -/

/-- The filter of a `render` call; `content` is what its file holds. -/
def renderOutput (template : String) (paramsFile : Option String) (pairs : List String)
    (content : Except ReadFailure ByteArray) : Except CommandError String :=
  let (loader, error) :=
    match paramsFile with
    | none => (Loader.empty, none)
    | some path => Loader.empty.loadFile path content
  match error with
  | some e => .error (.load e)
  | none =>
    match loader.applyPairs pairs with
    | (_, some e) => .error (.load e)
    | (loader, none) => .ok (substitute template (some loader.params))

/-- The query of a `search` call. -/
def searchQuery (fields : List String) (value : String) : Query :=
  Session.run .empty [.search fields (.string value)]

/-- The file that a command reads. -/
def fileOf : Command → Option String
  | .render _ paramsFile _ => paramsFile
  | _ => none

/-- What a command prints; `content` is what its file holds. -/
def output (content : Except ReadFailure ByteArray) : Command → Except CommandError String
  | .render template paramsFile pairs => renderOutput template paramsFile pairs content
  | .search fields value raw =>
    if raw then
      match (searchQuery fields value).build with
      | .ok p => .ok p.toJson.indented
      | .error e => .error (.build e)
    else
      match (searchQuery fields value).buildWith substitute with
      | .ok filter => .ok filter
      | .error e => .error (.build e)
  | .operators true => .ok operatorsJson.indented
  | .operators false => .ok (String.intercalate "\n" operatorTable)

end CommandLine

end FilterTemplate
