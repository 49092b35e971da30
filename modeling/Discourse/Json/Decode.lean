import Discourse.Json.Number
import Discourse.Json.Reader
/-!
# Values of a known form

A record is written as an object, or as an array of its members in order.  In an object unknown
members do not count, and a known member may be there only once.
-/

namespace Discourse.Json

/-- A truth value. -/
def asBool? : Json → Option Bool
  | .bool b => some b
  | _ => none

/-- A text. -/
def asString? : Json → Option String
  | .str s? => s?
  | _ => none

/-- A 64-bit natural number. -/
def asNat? : Json → Option Nat
  | .num n => n.toNat?
  | _ => none

/-- A floating-point number. -/
def asFloat? : Json → Option Float
  | .num n => n.toFloat?
  | _ => none

/-- A row of elements of one form. -/
def asList? {α : Type} (f : Json → Option α) : Json → Option (List α)
  | .arr items => items.mapM f
  | _ => none

/-- A table of elements of one form, in which the last of several members of a name counts. -/
def asTable? {α : Type} (f : Json → Option α) : Json → Option (List (String × α))
  | .obj fields => fields.mapM fun (name?, value) => do
    let name ← name?
    let a ← f value
    return (name, a)
  | _ => none

/-- Whether no name occurs twice. -/
def namesDiffer : List String → Bool
  | [] => true
  | name :: rest => !rest.contains name && namesDiffer rest

/-- The members of a record with the given names. -/
def members? (names : List String) : Json → Option (List (String × Json))
  | .obj fields => do
    let named ← fields.mapM fun (name?, value) => name?.map fun name => (name, value)
    let known := named.filter fun (name, _) => names.contains name
    if namesDiffer (known.map Prod.fst) then some known else none
  | .arr items => if items.length ≤ names.length then some (names.zip items) else none
  | _ => none

/-- A member that has to be there. -/
def required? {α : Type} (members : List (String × Json)) (name : String)
    (f : Json → Option α) : Option α :=
  (members.lookup name).bind f

/-- A member that may be missing or null. -/
def optional? {α : Type} (members : List (String × Json)) (name : String)
    (f : Json → Option α) : Option (Option α) :=
  match members.lookup name with
  | none | some .null => some none
  | some value => (f value).map some

/-- A member with a value to be taken where it is missing. -/
def defaulted? {α : Type} (members : List (String × Json)) (name : String) (fallback : α)
    (f : Json → Option α) : Option α :=
  match members.lookup name with
  | none => some fallback
  | some value => f value

/-- One of several words, alone or as the only member of an object, with null. -/
def asWord? {α : Type} (word? : String → Option α) : Json → Option α
  | .str s? => s?.bind word?
  | .obj [(name?, .null)] => name?.bind word?
  | _ => none

end Discourse.Json
