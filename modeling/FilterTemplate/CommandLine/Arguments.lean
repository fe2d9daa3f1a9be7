/-
  FilterTemplate.CommandLine.Arguments

  What the arguments of a call ask for. Options are long: `--name value` or
  `--name=value`, where a value on its own may not start with a dash. An option
  comes at most once unless it collects values, and nothing else may stand
  between options. The first thing wrong from left to right counts, and a
  request for help before it wins.
-/

namespace FilterTemplate

/-- A command with its options. -/
inductive Command where
  /-- Fills a template with values from a file and from pairs. -/
  | render (template : String) (paramsFile : Option String) (pairs : List String)
  /-- Writes the filter that looks for a value in several fields. -/
  | search (fields : List String) (value : String) (raw : Bool)
  /-- Lists the operators. -/
  | operators (json : Bool)

/-- What a call asks for. -/
inductive Request where
  | run (command : Command)
  | help
  | version

namespace CommandLine

/-- An option of a command. -/
structure Choice where
  name : String
  takesValue : Bool
  repeatable : Bool
  /-- An empty value counts as none. -/
  nonEmpty : Bool

/-- What ends the reading of options early. -/
inductive Stop where
  | help
  | usage

/-- The name of a long option and the value behind an equals sign. -/
def longOption? (arg : String) : Option (String × Option String) :=
  match arg.toList with
  | '-' :: '-' :: s =>
    let name := String.ofList (s.takeWhile (· ≠ '='))
    match s.dropWhile (· ≠ '=') with
    | [] => some (name, none)
    | _ :: value => some (name, some (String.ofList value))
  | _ => none

/-- The text can be the value of an option before it: only a lone dash starts with a dash. -/
def isPlainValue (arg : String) : Bool :=
  arg == "-" || arg.toList.head? != some '-'

/-- The argument is a short option that starts with the given letter. -/
def isShort (letter : Char) (arg : String) : Bool :=
  match arg.toList with
  | '-' :: c :: _ => c == letter
  | _ => false

/-- The options read, with their values in order; a flag has an empty value. -/
abbrev Options : Type :=
  List (String × String)

/-- Takes an option with its value. -/
def accept (choice : Choice) (value : String) (read : Options) : Except Stop Options :=
  if choice.nonEmpty && value == "" then .error .usage else .ok (read ++ [(choice.name, value)])

/-- Reads the options of a command. -/
def readOptions (choices : List Choice) (read : Options) : List String → Except Stop Options
  | [] => .ok read
  | arg :: rest =>
    if arg = "--" then if rest = [] then .ok read else .error .usage
    else if isShort 'h' arg then .error .help
    else
      match longOption? arg with
      | none => .error .usage
      | some (name, attached) =>
        if name = "help" then if attached.isNone then .error .help else .error .usage
        else
          match choices.find? (·.name == name) with
          | none => .error .usage
          | some choice =>
            if !choice.repeatable && read.any (·.1 == name) then .error .usage
            else
              match choice.takesValue, attached with
              | false, none => do
                let read ← accept choice "" read
                readOptions choices read rest
              | false, some _ => .error .usage
              | true, some value => do
                let read ← accept choice value read
                readOptions choices read rest
              | true, none =>
                match rest with
                | [] => .error .usage
                | value :: rest =>
                  if isPlainValue value then do
                    let read ← accept choice value read
                    readOptions choices read rest
                  else .error .usage

/-- The values of an option in order. -/
def valuesOf (name : String) (read : Options) : List String :=
  (read.filter (·.1 == name)).map Prod.snd

/-- The texts between commas. -/
def splitAtCommas (s : String) : List String :=
  let parts := s.toList.foldr
    (fun c parts =>
      match parts with
      | [] => [[c]]
      | part :: rest => if c = ',' then [] :: part :: rest else (c :: part) :: rest)
    [[]]
  parts.map String.ofList

/-! ## Commands -/

/-- A flag. -/
def flag (name : String) : Choice :=
  ⟨name, false, false, false⟩

/-- An option with one value. -/
def single (name : String) : Choice :=
  ⟨name, true, false, false⟩

/-- An option that collects values. -/
def many (name : String) : Choice :=
  ⟨name, true, true, false⟩

/-- The request of a `render` call. -/
def readRender (args : List String) : Except Stop Command := do
  let read ← readOptions
    [single "template", { single "params" with nonEmpty := true }, many "param"] [] args
  match valuesOf "template" read with
  | [] => .error .usage
  | template :: _ => return .render template (valuesOf "params" read).head? (valuesOf "param" read)

/-- The request of a `search` call. -/
def readSearch (args : List String) : Except Stop Command := do
  let read ← readOptions [many "fields", single "value", flag "raw"] [] args
  match valuesOf "fields" read, valuesOf "value" read with
  | [], _ => .error .usage
  | _ :: _, [] => .error .usage
  | fields, value :: _ =>
    return .search (fields.flatMap splitAtCommas) value (!(valuesOf "raw" read).isEmpty)

/-- The request of an `operators` call. -/
def readOperators (args : List String) : Except Stop Command := do
  let read ← readOptions [flag "json"] [] args
  return .operators (!(valuesOf "json" read).isEmpty)

/-- The commands by name. -/
def commandReader? (name : String) : Option (List String → Except Stop Command) :=
  match name with
  | "render" => some readRender
  | "search" => some readSearch
  | "operators" => some readOperators
  | _ => none

/-- The request that the arguments of a call stand for, if they are in order. -/
def request? : List String → Option Request
  | [] => none
  | arg :: rest =>
    if arg = "--help" ∨ isShort 'h' arg then some .help
    else if arg = "--version" ∨ isShort 'V' arg then some .version
    else if arg = "help" then
      match rest with
      | [] => some .help
      | [name] => if name = "help" || (commandReader? name).isSome then some .help else none
      | _ => none
    else
      match commandReader? arg with
      | none => none
      | some read =>
        match read rest with
        | .ok command => some (.run command)
        | .error .help => some .help
        | .error .usage => none

end CommandLine

end FilterTemplate
