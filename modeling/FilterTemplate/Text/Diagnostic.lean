/-
  FilterTemplate.Text.Diagnostic

  The form in which a message shows a text it complains about: in double
  quotes, with a backslash escape for each character that would end the form,
  break the line or not be visible.
-/
import FilterTemplate.Text.Printable

namespace FilterTemplate.Text

/-- One character as a message shows it. -/
def shownChar (c : Char) : List Char :=
  match c with
  | '\x00' => ['\\', '0']
  | '\t' => ['\\', 't']
  | '\r' => ['\\', 'r']
  | '\n' => ['\\', 'n']
  | '"' => ['\\', '"']
  | '\\' => ['\\', '\\']
  | c =>
    if isPrintable c then [c]
    else ['\\', 'u', '\x7b'] ++ Nat.toDigits 16 c.toNat ++ ['\x7d']

/-- A text as a message shows it. -/
def shown (s : List Char) : List Char :=
  '"' :: (s.flatMap shownChar ++ ['"'])

example : shown "a\"\n\x00\x7fé".toList = "\"a\\\"\\n\\0\\u\x7b7f\x7dé\"".toList := by
  decide +kernel

end FilterTemplate.Text
