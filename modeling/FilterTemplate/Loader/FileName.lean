/-
  FilterTemplate.Loader.FileName

  The extension of a file, which decides how its content is read. It is what
  stands behind the last point of the file's name, unless that point is the
  first character.
-/

namespace FilterTemplate.FileName

/-- The parts of a path between slashes. -/
def segments : List Char → List (List Char)
  | [] => [[]]
  | c :: s =>
    if c = '/' then [] :: segments s
    else
      match segments s with
      | [] => [[c]]
      | part :: rest => (c :: part) :: rest

/-- The last part of a path that is not empty and not a single point. -/
def lastPart? (path : List Char) : Option (List Char) :=
  ((segments path).filter fun part => part ≠ [] && part ≠ ['.']).getLast?

/-- The extension of a file's name. -/
def extension? (name : List Char) : Option (List Char) :=
  let extension := (name.reverse.takeWhile (· ≠ '.')).reverse
  let before := name.take (name.length - extension.length - 1)
  if name = ['.', '.'] ∨ '.' ∉ name ∨ before = [] then none else some extension

/-- The file is named as a JSON file; upper and lower case do not matter. -/
def isJson (path : String) : Bool :=
  match (lastPart? path.toList).bind extension? with
  | some extension => extension.map Char.toLower == ['j', 's', 'o', 'n']
  | none => false

example : isJson "dir/a.b.JSON" = true ∧ isJson ".json" = false ∧ isJson "p.json " = false ∧
    isJson "..json" = true := by decide +kernel

end FilterTemplate.FileName
