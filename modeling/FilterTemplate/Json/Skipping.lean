/-
  FilterTemplate.Json.Skipping

  Passing over a value whose content does not matter. The grammar is the one of
  reading, but less is checked: containers nest to any depth, numbers are not
  held against a range, and the code units of a string need not pair up. A
  numeral that the end of the text cuts short counts as malformed here.
-/
import FilterTemplate.Json.Reader

namespace FilterTemplate.Json.Reader

/-- Passes over a numeral. -/
def skipNumeral (s : List Char) : Except ReadError (List Char) :=
  match numeral s with
  | .ok (_, rest) => .ok rest
  | .error _ => .error .malformed

/-- Passes over a string up to its closing quote, the opening one being read. -/
def skipString : List Char → Except ReadError (List Char)
  | [] => .error .truncated
  | c :: s =>
    if c = '"' then .ok s
    else if c = '\\' then
      match s with
      | [] => .error .truncated
      | e :: s =>
        if (shortEscape? e).isSome then skipString s
        else if e = 'u' then
          match s with
          | h₁ :: h₂ :: h₃ :: h₄ :: s =>
            if (hexQuad? h₁ h₂ h₃ h₄).isSome then skipString s else .error .malformed
          | s => .error (hexError s)
        else .error .malformed
    else if c.toNat < 0x20 then .error .malformed
    else skipString s

/-- Reads nothing: what is passed over leaves only the rest of the text. -/
def discard (skip : List Char → Except ReadError (List Char)) : Reader Unit :=
  fun s => do
    let rest ← skip s
    return ((), rest)

/-- Passes over a value in which containers nest no deeper than the budget. -/
def skipWithin : (budget : Nat) → List Char → Except ReadError (List Char)
  | 0, _ => .error .malformed
  | budget + 1, s =>
    match skipSpace s with
    | [] => .error .truncated
    | c :: rest =>
      if c = '[' then do
        let ((), rest) ← items ']' (fun () => discard (skipWithin budget)) () rest
        return rest
      else if c = '\x7b' then do
        let member := fun () s => do
          let ((), s) ← quoteThen (discard skipString) s
          let s ← colon s
          discard (skipWithin budget) s
        let ((), rest) ← items '\x7d' member () rest
        return rest
      else if c = '"' then skipString rest
      else if c = '-' ∨ c.isDigit then skipNumeral (c :: rest)
      else do
        let (_, rest) ← scalar (c :: rest)
        return rest

/-- Passes over a value. A text nests no deeper than it is long. -/
def skipValue (s : List Char) : Except ReadError (List Char) :=
  skipWithin (s.length + 1) s

end FilterTemplate.Json.Reader
