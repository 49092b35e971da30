/-!
# JSON values

A value keeps what was written: a number its digits, an object all its members in order, and a
text is there only if it is a text at all, for an escaped half of a surrogate pair stands for no
character.  What a value means is left to whoever reads it for a purpose.
-/

namespace Discourse

/-- A number as it is written, digit by digit. -/
structure Numeral where
  negative : Bool := false
  /-- The digits before the point; at least one, and no needless zero in front. -/
  whole : List Nat
  /-- The digits after the point; none if there is no point. -/
  fraction : List Nat := []
  /-- Whether the exponent is negative, and its digits. -/
  exponent? : Option (Bool × List Nat) := none
deriving DecidableEq, Repr, Inhabited

/-- A JSON value. -/
inductive Json
  | null
  | bool (b : Bool)
  | num (n : Numeral)
  /-- A text, or none for a text with half a surrogate pair. -/
  | str (s? : Option String)
  | arr (items : List Json)
  | obj (fields : List (Option String × Json))
deriving Repr, Inhabited

/-- The number that a row of decimal digits writes. -/
def ofDigits (digits : List Nat) : Nat := digits.foldl (fun n d => 10 * n + d) 0

/-- The decimal digits of a number. -/
def decimalDigits (n : Nat) : List Nat := (Nat.toDigits 10 n).map fun c => c.toNat - '0'.toNat

namespace Json

/-- A text as a value. -/
def ofString (s : String) : Json := .str (some s)

/-- A natural number as a value. -/
def ofNat (n : Nat) : Json := .num { whole := decimalDigits n }

/-- An integer as a value. -/
def ofInt (n : Int) : Json := .num { negative := decide (n < 0), whole := decimalDigits n.natAbs }

/-- An object with the members given. -/
def ofFields (fields : List (String × Json)) : Json :=
  .obj (fields.map fun (name, value) => (some name, value))

/-- A value that may be missing. -/
def ofOption {α : Type} (f : α → Json) : Option α → Json
  | none => .null
  | some a => f a

/-- A row of values. -/
def ofList {α : Type} (f : α → Json) (items : List α) : Json := .arr (items.map f)

end Json

end Discourse
