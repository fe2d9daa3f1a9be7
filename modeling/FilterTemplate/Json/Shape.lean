/-
  FilterTemplate.Json.Shape

  Reading a text that has to hold a value of a certain kind, and the messages
  about a text that holds another one.
-/
import FilterTemplate.Json.Printer
import FilterTemplate.Json.Reader
import FilterTemplate.Text.Diagnostic

namespace FilterTemplate.Json

/-! ## Messages -/

/-- What was found, as a message names it. -/
def Found.description : Found → String
  | .null => "null"
  | .bool value => "boolean `" ++ (if value then "true" else "false") ++ "`"
  | .number (.int i h) => "integer `" ++ String.ofList (Number.int i h).text ++ "`"
  | .number (.float x h) => "floating point `" ++ String.ofList (Number.float x h).text ++ "`"
  | .string s => "string " ++ String.ofList (Text.shown s.toList)
  | .array => "sequence"
  | .object => "map"

/-- Names in backquotes, separated by commas. -/
def backquoted (names : List String) : String :=
  String.intercalate ", " (names.map fun name => "`" ++ name ++ "`")

/-- The message about a wrong shape. -/
def ShapeError.message : ShapeError → String
  | .wrongKind found expected =>
    "invalid type: " ++ found.description ++ ", expected " ++ expected
  | .missingField name => "missing field `" ++ name ++ "`"
  | .duplicateField name => "duplicate field `" ++ name ++ "`"
  | .unknownName name known =>
    "unknown variant `" ++ name ++ "`, expected one of " ++ backquoted known
  | .tooShort length expected =>
    "invalid length " ++ String.ofList (Nat.toDigits 10 length) ++ ", expected " ++ expected

/-! ## Values of the wrong kind -/

namespace Reader

/-- The error about the value at the front of a text where another kind is
expected. A scalar is read first, and what is wrong with it comes first. -/
def wrongKind (expected : String) (s : List Char) : ReadError :=
  match s with
  | '[' :: _ => .shape (.wrongKind .array expected)
  | '\x7b' :: _ => .shape (.wrongKind .object expected)
  | s =>
    match scalar s with
    | .error e => e
    | .ok (.null, _) => .shape (.wrongKind .null expected)
    | .ok (.bool b, _) => .shape (.wrongKind (.bool b) expected)
    | .ok (.number n, _) => .shape (.wrongKind (.number n) expected)
    | .ok (.string t, _) => .shape (.wrongKind (.string t) expected)
    | .ok (.array _, _) => .shape (.wrongKind .array expected)
    | .ok (.ordered _, _) => .shape (.wrongKind .object expected)

/-- A string, after white space. -/
def expectString (expected : String) (s : List Char) : Except ReadError (String × List Char) :=
  match skipSpace s with
  | [] => .error .truncated
  | '"' :: rest => string rest
  | s => .error (wrongKind expected s)

/-- Takes the word `null` off the text, after white space. -/
def expectNull (expected : String) (s : List Char) : Except ReadError (List Char) :=
  match skipSpace s with
  | [] => .error .truncated
  | 'n' :: rest => keyword ['u', 'l', 'l'] rest
  | s => .error (wrongKind expected s)

/-- The members of an object, folded in the order of the text, after white space. -/
def expectMembers (expected : String) (member : α → Reader α) (start : α) (s : List Char) :
    Except ReadError (α × List Char) :=
  match skipSpace s with
  | [] => .error .truncated
  | '\x7b' :: rest => items '\x7d' member start rest
  | s => .error (wrongKind expected s)

end Reader

end FilterTemplate.Json
