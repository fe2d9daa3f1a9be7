/-
  FilterTemplate.Json.Reader

  Reading JSON text. A reader takes characters off the front of a text and
  returns what it read with the rest, or the first thing that is wrong from
  left to right: `malformed` where a character cannot stand, `truncated` where
  the text ends too early. Containers may nest only as deep as a budget
  allows. Of several members with one key an object keeps the last.
-/
import FilterTemplate.Json.Basic
import FilterTemplate.Number.IntegerText
import FilterTemplate.Number.Scaling

namespace FilterTemplate.Json

/-! ## Errors -/

/-- The kind and value of something found where another kind was expected. -/
inductive Found where
  | null
  | bool (value : Bool)
  | number (value : Number)
  | string (value : String)
  | array
  | object

/-- What is wrong with a well-formed text that has the wrong shape. -/
inductive ShapeError where
  /-- A value of another kind than the expected one. -/
  | wrongKind (found : Found) (expected : String)
  /-- An object lacks a field. -/
  | missingField (name : String)
  /-- An object has a field twice. -/
  | duplicateField (name : String)
  /-- A name is none of the known ones. -/
  | unknownName (name : String) (known : List String)
  /-- An array stands for a record and has too few items. -/
  | tooShort (length : Nat) (expected : String)

/-- Why a text cannot be read. -/
inductive ReadError where
  /-- A character cannot stand where it does, or a number is out of range. -/
  | malformed
  /-- The text ends too early. -/
  | truncated
  /-- The text is well formed so far but has the wrong shape. -/
  | shape (error : ShapeError)

/-- Reads an `α` off the front of a text. -/
abbrev Reader (α : Type) : Type :=
  List Char → Except ReadError (α × List Char)

namespace Reader

/-! ## Blanks and keywords -/

/-- The white space of JSON. -/
def isSpace (c : Char) : Bool :=
  c == ' ' || c == '\t' || c == '\n' || c == '\r'

/-- The text behind the white space it starts with. -/
def skipSpace (s : List Char) : List Char :=
  s.dropWhile isSpace

theorem length_skipSpace_le (s : List Char) : (skipSpace s).length ≤ s.length :=
  (List.dropWhile_sublist isSpace).length_le

/-- Takes exactly the given characters off the text. -/
def keyword : (expected : List Char) → List Char → Except ReadError (List Char)
  | [], s => .ok s
  | _ :: _, [] => .error .truncated
  | e :: expected, c :: s => if c = e then keyword expected s else .error .malformed

/-! ## Numbers -/

/-- A decimal numeral as it is written: whole part, fraction and exponent. -/
structure Numeral where
  negative : Bool
  whole : List Char
  fraction : Option (List Char)
  exponent : Option Int

/-- The digits at the front of a text; there has to be one. -/
def digits : Reader (List Char)
  | [] => .error .truncated
  | c :: s =>
    if c.isDigit then .ok (c :: s.takeWhile Char.isDigit, s.dropWhile Char.isDigit)
    else .error .malformed

/-- The whole part of a numeral, in which only a lone digit may be zero at the front. -/
def wholePart (s : List Char) : Except ReadError (List Char × List Char) :=
  match s with
  | '0' :: c :: rest => if c.isDigit then .error .malformed else .ok (['0'], c :: rest)
  | s => digits s

/-- The fraction of a numeral, if a point announces one. -/
def fractionPart : Reader (Option (List Char))
  | '.' :: s => do
    let (ds, rest) ← digits s
    return (some ds, rest)
  | s => .ok (none, s)

/-- The exponent of a numeral, if a letter announces one. -/
def exponentPart : Reader (Option Int)
  | [] => .ok (none, [])
  | c :: s =>
    if c = 'e' ∨ c = 'E' then
      match s with
      | '-' :: s => do
        let (ds, rest) ← digits s
        return (some (-(digitsValue ds : Int)), rest)
      | '+' :: s => do
        let (ds, rest) ← digits s
        return (some (digitsValue ds : Int), rest)
      | s => do
        let (ds, rest) ← digits s
        return (some (digitsValue ds : Int), rest)
    else .ok (none, c :: s)

/-- A numeral behind its sign. -/
def unsignedNumeral (negative : Bool) (s : List Char) :
    Except ReadError (Numeral × List Char) := do
  let (whole, s) ← wholePart s
  let (fraction, s) ← fractionPart s
  let (exponent, s) ← exponentPart s
  return (⟨negative, whole, fraction, exponent⟩, s)

/-- A numeral. -/
def numeral : Reader Numeral
  | '-' :: s => unsignedNumeral true s
  | s => unsignedNumeral false s

/-- The number a float stands for, if it is finite. -/
def finite? (x : Binary64) : Option Number :=
  if h : x.isFinite = true then some (.float x h) else none

/-- Appends digits to a whole number as long as it stays below `2 ^ 64`, and counts
the digits that are left. -/
def appendDigits : (sum : Nat) → List Char → Nat × Nat
  | sum, [] => (sum, 0)
  | sum, c :: s =>
    let longer := 10 * sum + (c.toNat - '0'.toNat)
    if longer < 18446744073709551616 then appendDigits longer s else (sum, s.length + 1)

/-- The floating-point number that a numeral stands for, unless that is infinite.
Digits that do not fit count as places only. -/
def Numeral.toFloat? (n : Numeral) : Option Number :=
  let fraction := n.fraction.getD []
  let (sum, wholeLeft) := appendDigits 0 n.whole
  let (sum, fractionLeft) := appendDigits sum fraction
  finite? (.ofDecimal n.negative sum
    (n.exponent.getD 0 + wholeLeft + fractionLeft - fraction.length))

/-- The number a numeral stands for. Without a point and an exponent it is a
whole number if one of the ranges holds it; a negative zero and all else is
a floating-point number. -/
def Numeral.toNumber? (n : Numeral) : Option Number :=
  if n.fraction.isNone ∧ n.exponent.isNone then
    let magnitude := digitsValue n.whole
    if n.negative then
      if h : 0 < magnitude ∧ magnitude ≤ 9223372036854775808 then
        some (.int (-magnitude) (by omega))
      else n.toFloat?
    else
      if h : magnitude < 18446744073709551616 then some (.int magnitude (by omega)) else n.toFloat?
  else n.toFloat?

/-- A number. -/
def number (s : List Char) : Except ReadError (Number × List Char) := do
  let (n, rest) ← numeral s
  match n.toNumber? with
  | some n => return (n, rest)
  | none => .error .malformed

/-! ## Strings -/

/-- The value of a hexadecimal digit of either case. -/
def hexValue? (c : Char) : Option Nat :=
  if '0' ≤ c ∧ c ≤ '9' then some (c.toNat - '0'.toNat)
  else if 'a' ≤ c ∧ c ≤ 'f' then some (c.toNat - 'a'.toNat + 10)
  else if 'A' ≤ c ∧ c ≤ 'F' then some (c.toNat - 'A'.toNat + 10)
  else none

/-- The number that four hexadecimal digits stand for. -/
def hexQuad? (a b c d : Char) : Option Nat := do
  let a ← hexValue? a
  let b ← hexValue? b
  let c ← hexValue? c
  let d ← hexValue? d
  return ((a * 16 + b) * 16 + c) * 16 + d

/-- What is wrong where four hexadecimal digits are due and are not there: the
text is too short if fewer than four bytes are left. -/
def hexError (s : List Char) : ReadError :=
  if s.foldl (fun n c => n + c.utf8Size) 0 < 4 then .truncated else .malformed

/-- The character that a backslash and one more character stand for. -/
def shortEscape? (c : Char) : Option Char :=
  match c with
  | '"' => some '"'
  | '\\' => some '\\'
  | '/' => some '/'
  | 'b' => some '\x08'
  | 'f' => some '\x0c'
  | 'n' => some '\n'
  | 'r' => some '\r'
  | 't' => some '\t'
  | _ => none

/-- Code units that open a pair for one character. -/
def isHighSurrogate (n : Nat) : Bool :=
  0xD800 ≤ n && n ≤ 0xDBFF

/-- Code units that close such a pair. -/
def isLowSurrogate (n : Nat) : Bool :=
  0xDC00 ≤ n && n ≤ 0xDFFF

/-- The character that a pair of code units stands for. -/
def surrogatePair (high low : Nat) : Char :=
  Char.ofNat (0x10000 + (high - 0xD800) * 0x400 + (low - 0xDC00))

/-- Puts a character in front of what is read behind it. -/
def prepend (c : Char) (r : Except ReadError (List Char × List Char)) :
    Except ReadError (List Char × List Char) :=
  r.map fun (cs, rest) => (c :: cs, rest)

/-- The characters of a string up to its closing quote, the opening one being read. -/
def stringTail : Reader (List Char)
  | [] => .error .truncated
  | c :: s =>
    if c = '"' then .ok ([], s)
    else if c = '\\' then
      match s with
      | [] => .error .truncated
      | e :: s =>
        match shortEscape? e with
        | some c => prepend c (stringTail s)
        | none =>
          if e = 'u' then
            match s with
            | h₁ :: h₂ :: h₃ :: h₄ :: s =>
              match hexQuad? h₁ h₂ h₃ h₄ with
              | none => .error .malformed
              | some unit =>
                if isLowSurrogate unit then .error .malformed
                else if isHighSurrogate unit then
                  match s with
                  | [] => .error .truncated
                  | b :: s =>
                    if b = '\\' then
                      match s with
                      | [] => .error .truncated
                      | u :: s =>
                        if u = 'u' then
                          match s with
                          | l₁ :: l₂ :: l₃ :: l₄ :: s =>
                            match hexQuad? l₁ l₂ l₃ l₄ with
                            | none => .error .malformed
                            | some low =>
                              if isLowSurrogate low then
                                prepend (surrogatePair unit low) (stringTail s)
                              else .error .malformed
                          | s => .error (hexError s)
                        else .error .malformed
                    else .error .malformed
                else prepend (Char.ofNat unit) (stringTail s)
            | s => .error (hexError s)
          else .error .malformed
    else if c.toNat < 0x20 then .error .malformed
    else prepend c (stringTail s)

/-- A string behind its opening quote. -/
def string (s : List Char) : Except ReadError (String × List Char) := do
  let (cs, rest) ← stringTail s
  return (String.ofList cs, rest)

/-! ## Containers -/

/-- Items separated by commas up to the closing mark, the next one being due. -/
def remainingItems (closing : Char) (item : α → Reader α) (read : α) (s : List Char) :
    Except ReadError (α × List Char) :=
  match item read s with
  | .error e => .error e
  | .ok (read, rest) =>
    match skipSpace rest with
    | [] => .error .truncated
    | c :: rest =>
      if c = closing then .ok (read, rest)
      else if c = ',' then
        if (skipSpace rest).length < s.length then
          remainingItems closing item read (skipSpace rest)
        else .error .malformed
      else .error .malformed
termination_by s.length

/-- Items separated by commas up to the closing mark, the opening one being
read. Each item is read in the light of the ones before it. -/
def items (closing : Char) (item : α → Reader α) (start : α) : Reader α :=
  fun s =>
    match skipSpace s with
    | [] => .error .truncated
    | c :: rest =>
      if c = closing then .ok (start, rest)
      else remainingItems closing item start (c :: rest)

/-- What is read behind a double quote, which is due. -/
def quoteThen (read : Reader α) : Reader α
  | [] => .error .truncated
  | c :: s => if c = '"' then read s else .error .malformed

/-- Takes the colon behind a key off the text. -/
def colon (s : List Char) : Except ReadError (List Char) :=
  match skipSpace s with
  | [] => .error .truncated
  | c :: rest => if c = ':' then .ok rest else .error .malformed

/-! ## Values -/

/-- A value that is not a container. -/
def scalar : Reader Json
  | [] => .error .truncated
  | c :: s =>
    if c = 'n' then do
      let rest ← keyword ['u', 'l', 'l'] s
      return (.null, rest)
    else if c = 't' then do
      let rest ← keyword ['r', 'u', 'e'] s
      return (.bool true, rest)
    else if c = 'f' then do
      let rest ← keyword ['a', 'l', 's', 'e'] s
      return (.bool false, rest)
    else if c = '"' then do
      let (text, rest) ← string s
      return (.string text, rest)
    else if c = '-' ∨ c.isDigit then do
      let (n, rest) ← number (c :: s)
      return (.number n, rest)
    else .error .malformed

/-- How deep a text may nest containers. -/
def nestingLimit : Nat :=
  127

/-- A value in which containers nest no deeper than the budget, after white space. -/
def value : (budget : Nat) → Reader Json
  | 0, s =>
    match skipSpace s with
    | [] => .error .truncated
    | c :: rest =>
      if c = '[' ∨ c = '\x7b' then .error .malformed else scalar (c :: rest)
  | budget + 1, s =>
    match skipSpace s with
    | [] => .error .truncated
    | c :: rest =>
      if c = '[' then do
        let item := fun (read : List Json) (s : List Char) => do
          let (x, s) ← value budget s
          return (x :: read, s)
        let (read, rest) ← items ']' item [] rest
        return (.array read.reverse, rest)
      else if c = '\x7b' then do
        let member := fun (read : Members none) (s : List Char) => do
          let (k, s) ← quoteThen string s
          let s ← colon s
          let (x, s) ← value budget s
          return (read.set k x, s)
        let (read, rest) ← items '\x7d' member .nil rest
        return (.ordered read, rest)
      else scalar (c :: rest)

end Reader

/-! ## Whole texts -/

/-- What a whole text holds: nothing but white space may follow. -/
def whole (read : Reader α) (s : List Char) : Except ReadError α := do
  let (a, rest) ← read s
  if Reader.skipSpace rest = [] then return a else .error .malformed

/-- The value of a text. -/
def ofText (s : List Char) : Except ReadError Json :=
  whole (Reader.value Reader.nestingLimit) s

end FilterTemplate.Json
