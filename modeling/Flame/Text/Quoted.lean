import Flame.Text.Hidden

/-!
The quoted form of a text, on one line and in visible characters only.

The text stands between double quotes. A quote and a backslash take a backslash before them;
the null character, tab, carriage return and line feed have short names; every other hidden
character is written by its number in hexadecimal, between braces.
-/

namespace Flame.Text

/-- A hidden character by its number: a backslash, the letter u, and the number in braces. -/
def byNumber (c : Char) : List Char :=
  '\\' :: 'u' :: '\x7b' :: (Nat.toDigits 16 c.toNat ++ ['\x7d'])

/-- A character as it stands inside a quoted text. -/
def quoteChar (c : Char) : List Char :=
  if c = '"' ∨ c = '\\' then ['\\', c]
  else if c = '\x00' then ['\\', '0']
  else if c = '\t' then ['\\', 't']
  else if c = '\r' then ['\\', 'r']
  else if c = '\n' then ['\\', 'n']
  else if isHidden c then byNumber c
  else [c]

/-- A text in quoted form. -/
def quoted (s : String) : String :=
  String.ofList ('"' :: (s.toList.flatMap quoteChar ++ ['"']))

end Flame.Text
