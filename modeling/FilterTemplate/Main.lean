/-
  FilterTemplate.Main

  The program `pbq`: reads the file that its arguments name and prints what
  the command gives. A failed command ends with status 1, arguments that make
  no sense with status 2.
-/
import FilterTemplate.CommandLine.Run

namespace FilterTemplate.CommandLine

/-- The content of a file, or why there is none. -/
def fileContent (path : String) : IO (Except ReadFailure ByteArray) := do
  try
    return .ok (← IO.FS.readBinFile path)
  catch
    | .noFileOrDirectory .. => return .error .notFound
    | e => return .error (.other (toString e))

/-- Carries out a call and gives the status to end with. -/
def serve (args : List String) : IO UInt32 := do
  match request? args with
  | none =>
    IO.eprintln usage
    return 2
  | some .help =>
    IO.println usage
    return 0
  | some .version =>
    IO.println version
    return 0
  | some (.run command) =>
    let content ←
      match fileOf command with
      | none => pure (.error .notFound)
      | some path => fileContent path
    match output content command with
    | .ok text =>
      IO.println text
      return 0
    | .error e =>
      IO.eprintln ("Error: " ++ e.message)
      return 1

end FilterTemplate.CommandLine

/-- The program. -/
def main (args : List String) : IO UInt32 :=
  FilterTemplate.CommandLine.serve args
