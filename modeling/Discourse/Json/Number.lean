import Discourse.Json.Basic
import Discourse.Offset
/-!
# The values of written numbers

A whole number without point and exponent is exact if it fits into 64 bits.  Any other number is
taken as a floating-point number: as many digits as fit into 64 bits make a whole number, which is
then scaled by a power of ten.  Digits beyond are dropped, before the point with their weight.  A
number too large for a floating-point number has no value.
-/

namespace Discourse

namespace Numeral

/-- The number as a 64-bit natural number. -/
def toNat? (n : Numeral) : Option Nat :=
  if n.negative || !n.fraction.isEmpty || n.exponent?.isSome then none
  else
    let value := ofDigits n.whole
    if value < wordLimit then some value else none

/-- Digits taken into a number while it fits into 64 bits: the number, and how many digits were
left over. -/
def takeDigits (value : Nat) : List Nat → Nat × Nat
  | [] => (value, 0)
  | d :: rest =>
    if 10 * value + d < wordLimit then takeDigits (10 * value + d) rest
    else (value, rest.length + 1)

/-- A power of ten up to the 308th. -/
def powerOfTen (n : Nat) : Float := Float.ofScientific 1 false n

/-- A number scaled by a negative power of ten, in steps that floating-point numbers can take. -/
def scaleDown : Nat → Float → Nat → Float
  | 0, f, _ => f
  | steps + 1, f, power =>
    if power ≤ 308 then f / powerOfTen power
    else if f == 0.0 then f
    else scaleDown steps (f / powerOfTen 308) (power - 308)

/-- A number scaled by a power of ten; none if it is too large.  Two steps down bring any 64-bit
number to zero. -/
def scale? (value : Nat) (power : Int) : Option Float :=
  let f := (UInt64.ofNat value).toFloat
  if power < 0 then some (scaleDown 4 f power.natAbs)
  else if power.natAbs ≤ 308 then
    let scaled := f * powerOfTen power.natAbs
    if scaled.isInf then none else some scaled
  else if f == 0.0 then some f else none

/-- The largest exponent that is computed with. -/
def exponentLimit : Nat := 2147483647

/-- The exponent kept within 32 bits. -/
def clampExponent (power : Int) : Int :=
  if (exponentLimit : Int) < power then exponentLimit
  else if power < -(exponentLimit : Int) - 1 then -(exponentLimit : Int) - 1
  else power

/-- The size of the number, its sign apart. -/
def magnitude? (n : Numeral) : Option Float :=
  let (whole, left) := takeDigits 0 n.whole
  let (value, dropped) := takeDigits whole n.fraction
  let power : Int := (left : Int) - ((n.fraction.length - dropped : Nat) : Int)
  match n.exponent? with
  | none => scale? value power
  | some (negative, digits) =>
    let exponent := ofDigits digits
    if exponentLimit < exponent then
      if value != 0 && !negative then none else some 0.0
    else if negative then scale? value (clampExponent (power - exponent))
    else scale? value (clampExponent (power + exponent))

/-- The number as a floating-point number. -/
def toFloat? (n : Numeral) : Option Float :=
  n.magnitude?.map fun f => if n.negative then -f else f

end Numeral

end Discourse
