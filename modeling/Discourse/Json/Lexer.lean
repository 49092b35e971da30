import Discourse.Json.Basic
/-!
# The tokens of a JSON text

A machine reads the text character by character.  Between tokens it skips the four blanks of JSON.
Words and numbers are maximal runs of their characters and have to be well formed as a whole.  In
a text every character but a control stands for itself, a quote or a backslash aside.
-/

namespace Discourse.Json

/-- A token of a JSON text. -/
inductive Lexeme
  | openArray
  | closeArray
  | openObject
  | closeObject
  | comma
  | colon
  | null
  | bool (b : Bool)
  | num (n : Numeral)
  | str (s? : Option String)
deriving DecidableEq, Repr

/-- A unit of a text: a character, or the 16-bit number of an escape. -/
inductive TextUnit
  | char (c : Char)
  | escape (code : Nat)
deriving DecidableEq, Repr

/-- What the machine is in the middle of; rows are kept with the last element first. -/
inductive LexState
  | between
  | word (letters : List Char)
  | number (letters : List Char)
  | text (units : List TextUnit)
  | escape (units : List TextUnit)
  | code (units : List TextUnit) (left value : Nat)
deriving DecidableEq, Repr

/-- The first half of a surrogate pair. -/
def isLeadSurrogate (code : Nat) : Bool := 0xD800 ≤ code && code < 0xDC00

/-- The second half of a surrogate pair. -/
def isTrailSurrogate (code : Nat) : Bool := 0xDC00 ≤ code && code < 0xE000

/-- The characters of a text, if every half of a surrogate pair has its other half. -/
def decodeUnits : List TextUnit → Option (List Char)
  | [] => some []
  | .char c :: rest => (decodeUnits rest).map (c :: ·)
  | [.escape code] =>
    if isLeadSurrogate code || isTrailSurrogate code then none else some [Char.ofNat code]
  | .escape code :: .char c :: rest =>
    if isLeadSurrogate code || isTrailSurrogate code then none
    else (decodeUnits (.char c :: rest)).map (Char.ofNat code :: ·)
  | .escape code :: .escape next :: rest =>
    if isLeadSurrogate code then
      if isTrailSurrogate next then
        (decodeUnits rest).map
          (Char.ofNat (0x10000 + (code - 0xD800) * 0x400 + (next - 0xDC00)) :: ·)
      else none
    else if isTrailSurrogate code then none
    else (decodeUnits (.escape next :: rest)).map (Char.ofNat code :: ·)

/-- The value of a decimal digit. -/
def digitValue (c : Char) : Nat := c.toNat - '0'.toNat

/-- Digits, at least one, that reach to the end or to the characters after them. -/
def someDigits? (cs : List Char) : Option (List Nat × List Char) :=
  match cs.takeWhile Char.isDigit with
  | [] => none
  | digits => some (digits.map digitValue, cs.dropWhile Char.isDigit)

/-- The exponent that ends a number, if there is one. -/
def exponentOf? : List Char → Option (Option (Bool × List Nat))
  | [] => some none
  | e :: rest =>
    if e != 'e' && e != 'E' then none
    else
      let (negative, digits) := match rest with
        | '-' :: digits => (true, digits)
        | '+' :: digits => (false, digits)
        | digits => (false, digits)
      match someDigits? digits with
      | some (digits, []) => some (some (negative, digits))
      | _ => none

/-- The number that a run of characters writes. -/
def numeralOf? (cs : List Char) : Option Numeral := do
  let (negative, cs) := match cs with
    | '-' :: rest => (true, rest)
    | _ => (false, cs)
  let (whole, cs) ← someDigits? cs
  if whole.head? == some 0 && whole.length != 1 then none
  let (fraction, cs) ← match cs with
    | '.' :: rest => someDigits? rest
    | _ => some ([], cs)
  let exponent? ← exponentOf? cs
  return { negative, whole, fraction, exponent? }

/-- The value that a run of letters writes. -/
def wordOf? (cs : List Char) : Option Lexeme :=
  if cs = ['t', 'r', 'u', 'e'] then some (.bool true)
  else if cs = ['f', 'a', 'l', 's', 'e'] then some (.bool false)
  else if cs = ['n', 'u', 'l', 'l'] then some .null
  else none

/-- The character that a one-letter escape stands for. -/
def escaped? (c : Char) : Option Char :=
  if c = '"' || c = '\\' || c = '/' then some c
  else if c = 'b' then some '\x08'
  else if c = 'f' then some '\x0c'
  else if c = 'n' then some '\n'
  else if c = 'r' then some '\r'
  else if c = 't' then some '\t'
  else none

/-- The value of a hexadecimal digit of either case. -/
def hexValue? (c : Char) : Option Nat :=
  if c.isDigit then some (digitValue c)
  else if 'a' ≤ c && c ≤ 'f' then some (c.toNat - 'a'.toNat + 10)
  else if 'A' ≤ c && c ≤ 'F' then some (c.toNat - 'A'.toNat + 10)
  else none

/-- A blank of JSON. -/
def isSpace (c : Char) : Bool := c == ' ' || c == '\n' || c == '\t' || c == '\r'

/-- A character of a number. -/
def isNumberChar (c : Char) : Bool :=
  c.isDigit || c == '-' || c == '+' || c == '.' || c == 'e' || c == 'E'

/-- The tokens so far, the last one first, and what the machine is in the middle of. -/
abbrev LexRun := List Lexeme × LexState

/-- A character between tokens. -/
def lexBetween (tokens : List Lexeme) (c : Char) : Option LexRun :=
  if isSpace c then some (tokens, .between)
  else if c = '[' then some (.openArray :: tokens, .between)
  else if c = ']' then some (.closeArray :: tokens, .between)
  else if c = '\x7b' then some (.openObject :: tokens, .between)
  else if c = '\x7d' then some (.closeObject :: tokens, .between)
  else if c = ',' then some (.comma :: tokens, .between)
  else if c = ':' then some (.colon :: tokens, .between)
  else if c = '"' then some (tokens, .text [])
  else if c = '-' || c.isDigit then some (tokens, .number [c])
  else if c.isAlpha then some (tokens, .word [c])
  else none

/-- One more character. -/
def lexStep (run : LexRun) (c : Char) : Option LexRun :=
  let (tokens, state) := run
  match state with
  | .between => lexBetween tokens c
  | .word letters =>
    if c.isAlpha then some (tokens, .word (c :: letters))
    else (wordOf? letters.reverse).bind fun token => lexBetween (token :: tokens) c
  | .number letters =>
    if isNumberChar c then some (tokens, .number (c :: letters))
    else (numeralOf? letters.reverse).bind fun n => lexBetween (.num n :: tokens) c
  | .text units =>
    if c = '"' then
      some (.str ((decodeUnits units.reverse).map String.ofList) :: tokens, .between)
    else if c = '\\' then some (tokens, .escape units)
    else if c.toNat < 0x20 then none
    else some (tokens, .text (.char c :: units))
  | .escape units =>
    if c = 'u' then some (tokens, .code units 4 0)
    else (escaped? c).map fun e => (tokens, .text (.char e :: units))
  | .code units left value =>
    (hexValue? c).map fun digit =>
      let value := value * 16 + digit
      if left ≤ 1 then (tokens, .text (.escape value :: units))
      else (tokens, .code units (left - 1) value)

/-- The tokens at the end of the text. -/
def lexEnd (run : LexRun) : Option (List Lexeme) :=
  match run.2 with
  | .between => some run.1.reverse
  | .word letters => (wordOf? letters.reverse).map fun token => (token :: run.1).reverse
  | .number letters => (numeralOf? letters.reverse).map fun n => (.num n :: run.1).reverse
  | .text _ | .escape _ | .code .. => none

/-- The tokens of a text. -/
def lexemes? (text : String) : Option (List Lexeme) :=
  (text.toList.foldlM lexStep (([], .between) : LexRun)).bind lexEnd

end Discourse.Json
