/-
  FilterTemplate.Value.Literal

  How a value is written in a filter: numbers, booleans and null bare, strings
  and timestamps in single quotes, arrays and objects as their JSON text in
  single quotes.
-/
import FilterTemplate.Json.Printer
import FilterTemplate.Text.Quoted
import FilterTemplate.Value.Basic

namespace FilterTemplate

/-- A floating-point number in a filter: all places, no exponent, nothing
behind a whole number, and zero without its sign. Of two equally near
decimals the greater one is taken. -/
def Binary64.literal (x : Binary64) : List Char :=
  let sign := if x.isNegative then ['-'] else []
  if x.isNaN then ['N', 'a', 'N']
  else if x.isInfinite then sign ++ ['I', 'n', 'f', 'i', 'n', 'i', 't', 'y']
  else if x.isZero then ['0']
  else sign ++ (x.shortest .up).positional []

namespace Value

/-- The value with a JSON scalar replaced by the kind of its own. -/
def simplified : Value → Value
  | .json j => ofJson j
  | v => v

/-- The characters of a value in a filter, a `json` value taken as a container. -/
def literalText : Value → List Char
  | .int v => integerText v.toInt
  | .uint v => Nat.toDigits 10 v.toNat
  | .float v => v.literal
  | .string v => Text.quoted v.toList
  | .boolean true => ['t', 'r', 'u', 'e']
  | .boolean false => ['f', 'a', 'l', 's', 'e']
  | .timestamp v => Text.quoted (v.text ' ')
  | .json v => Text.quoted (v.text .compact)
  | .null => ['n', 'u', 'l', 'l']

/-- The characters of a value in a filter. -/
def literal (v : Value) : List Char :=
  v.simplified.literalText

example : literal (.float ⟨0x8000000000000000⟩) = ['0'] ∧
    literal (.string "O'Brien") = "'O\\'Brien'".toList := by decide +kernel

end Value

end FilterTemplate
