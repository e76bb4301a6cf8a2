import Statechart.Text.Unseen

/-!
# Quoted text

The diagnostic form of a string: the text between double quotes, with the quote, the
backslash, and every character that would not show as itself written as an escape.

## Main definitions

- `Text.escape`: how one character is written between the quotes.
- `Text.quoted`: the quoted form of a string.
-/

namespace Statechart.Text

/-! ## Escapes -/

/-- The hexadecimal digits of a number, lower case and without leading zeros. -/
def hexadecimal (n : Nat) : List Char :=
  Nat.toDigits 16 n

/-- How a character is written inside quoted text. -/
def escape (c : Char) : List Char :=
  if c = '"' then ['\\', '"']
  else if c = '\\' then ['\\', '\\']
  else if c = '\n' then ['\\', 'n']
  else if c = '\t' then ['\\', 't']
  else if c = '\r' then ['\\', 'r']
  else if c = '\x00' then ['\\', '0']
  else if isUnseen c then ['\\', 'u', '\x7b'] ++ hexadecimal c.toNat ++ ['\x7d']
  else [c]

/-- The quoted form of a string. -/
def quoted (s : String) : String :=
  String.ofList ('"' :: s.toList.flatMap escape ++ ['"'])

/-! ## Records -/

/-- A record in diagnostic form: its name, then its fields in order between braces. -/
def record (name : String) (fields : List (String × String)) : String :=
  name ++ " \x7b " ++ ", ".intercalate (fields.map fun f => f.1 ++ ": " ++ f.2) ++ " \x7d"

/-- An optional value in diagnostic form. -/
def optional : Option String → String
  | none => "None"
  | some s => "Some(" ++ s ++ ")"

/-- A list in diagnostic form. -/
def bracketed (items : List String) : String :=
  "[" ++ ", ".intercalate items ++ "]"

end Statechart.Text
