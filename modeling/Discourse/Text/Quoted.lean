import Discourse.Text.Property
/-!
# The quoted form of a text

Messages show a name in double quotes.  Inside, a quote, a backslash and the common controls are
escaped by a letter, and a character that cannot be seen on its own, a combining mark among them,
by its code point in small hexadecimal digits.
-/

namespace Discourse.Text

/-- The hexadecimal digits of a number, most significant first. -/
def hexDigits (n : Nat) : List Char := Nat.toDigits 16 n

/-- One character as it stands inside quotes. -/
def quotedChar (c : Char) : List Char :=
  if c = '"' then ['\\', '"']
  else if c = '\\' then ['\\', '\\']
  else if c = '\n' then ['\\', 'n']
  else if c = '\t' then ['\\', 't']
  else if c = '\r' then ['\\', 'r']
  else if c.toNat = 0 then ['\\', '0']
  else if extendsGrapheme c || !isPrintable c then
    ['\\', 'u', '\x7b'] ++ hexDigits c.toNat ++ ['\x7d']
  else [c]

/-- The text in quotes. -/
def quoted (s : String) : String :=
  String.ofList ('"' :: s.toList.flatMap quotedChar ++ ['"'])

/-- A file name in quotes; here an apostrophe is escaped too. -/
def quotedPath (s : String) : String :=
  String.ofList
    ('"' :: (s.toList.flatMap fun c => if c = '\'' then ['\\', '\''] else quotedChar c) ++ ['"'])

end Discourse.Text
