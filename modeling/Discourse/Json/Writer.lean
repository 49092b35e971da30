import Discourse.Json.Basic
/-!
# Writing JSON

A value is written on one line, or on many with two spaces for every level.  Inside a text only
quotes, backslashes and controls are escaped.
-/

namespace Discourse.Json

/-- A hexadecimal digit. -/
def hexDigit (n : Nat) : Char := Char.ofNat (if n < 10 then '0'.toNat + n else 'a'.toNat + n - 10)

/-- A character inside a text. -/
def escapeChar (c : Char) : List Char :=
  if c = '"' then ['\\', '"']
  else if c = '\\' then ['\\', '\\']
  else if c = '\n' then ['\\', 'n']
  else if c = '\r' then ['\\', 'r']
  else if c = '\t' then ['\\', 't']
  else if c.toNat = 8 then ['\\', 'b']
  else if c.toNat = 12 then ['\\', 'f']
  else if c.toNat < 0x20 then
    ['\\', 'u', '0', '0', hexDigit (c.toNat / 16), hexDigit (c.toNat % 16)]
  else [c]

/-- A text in quotes. -/
def quoteText (s : String) : String :=
  String.ofList ('"' :: s.toList.flatMap escapeChar ++ ['"'])

/-- A text that may be none; none is written as an empty text. -/
def quoteText? (s? : Option String) : String := quoteText (s?.getD "")

/-- A row of digits. -/
def digitsText (digits : List Nat) : String :=
  String.ofList (digits.map fun d => Char.ofNat ('0'.toNat + d))

/-- A number. -/
def numeralText (n : Numeral) : String :=
  let sign := if n.negative then "-" else ""
  let fraction := if n.fraction.isEmpty then "" else "." ++ digitsText n.fraction
  let exponent := match n.exponent? with
    | none => ""
    | some (negative, digits) => (if negative then "e-" else "e") ++ digitsText digits
  sign ++ digitsText n.whole ++ fraction ++ exponent

mutual

/-- A value on one line, after what is written already. -/
def compactOnto (out : String) : Json → String
  | .null => out ++ "null"
  | .bool b => out ++ (if b then "true" else "false")
  | .num n => out ++ numeralText n
  | .str s? => out ++ quoteText? s?
  | .arr items => (compactItems (out ++ "[") true items) ++ "]"
  | .obj fields => (compactFields (out ++ "\x7b") true fields) ++ "\x7d"

/-- Elements on one line. -/
def compactItems (out : String) (first : Bool) : List Json → String
  | [] => out
  | item :: rest =>
    compactItems (compactOnto (if first then out else out ++ ",") item) false rest

/-- Members on one line. -/
def compactFields (out : String) (first : Bool) : List (Option String × Json) → String
  | [] => out
  | (name?, value) :: rest =>
    let out := (if first then out else out ++ ",") ++ quoteText? name? ++ ":"
    compactFields (compactOnto out value) false rest

end

/-- A value on one line. -/
def compact (v : Json) : String := compactOnto "" v

/-- The start of a line at a level. -/
def newLine (level : Nat) : String := "\n" ++ String.ofList (List.replicate (2 * level) ' ')

mutual

/-- A value on as many lines as it has elements, after what is written already. -/
def prettyOnto (out : String) (level : Nat) : Json → String
  | .null => out ++ "null"
  | .bool b => out ++ (if b then "true" else "false")
  | .num n => out ++ numeralText n
  | .str s? => out ++ quoteText? s?
  | .arr [] => out ++ "[]"
  | .obj [] => out ++ "\x7b\x7d"
  | .arr (item :: rest) =>
    let out := prettyOnto (out ++ "[" ++ newLine (level + 1)) (level + 1) item
    prettyItems out (level + 1) rest ++ newLine level ++ "]"
  | .obj ((name?, value) :: rest) =>
    let out := out ++ "\x7b" ++ newLine (level + 1) ++ quoteText? name? ++ ": "
    prettyFields (prettyOnto out (level + 1) value) (level + 1) rest ++ newLine level ++ "\x7d"

/-- Further elements, one to a line. -/
def prettyItems (out : String) (level : Nat) : List Json → String
  | [] => out
  | item :: rest => prettyItems (prettyOnto (out ++ "," ++ newLine level) level item) level rest

/-- Further members, one to a line. -/
def prettyFields (out : String) (level : Nat) : List (Option String × Json) → String
  | [] => out
  | (name?, value) :: rest =>
    let out := out ++ "," ++ newLine level ++ quoteText? name? ++ ": "
    prettyFields (prettyOnto out level value) level rest

end

/-- A value on as many lines as it has elements. -/
def pretty (v : Json) : String := prettyOnto "" 0 v

end Discourse.Json
