import Discourse.Text.Blank
import Discourse.Text.Case
/-!
# Acronyms

One word of capital letters, full stops aside, abbreviates a longer name if it spells the capital
initials of the name's words.
-/

namespace Discourse

/-- Whether the words `short` are one word that spells the initials of `long`. -/
def abbreviates (short long : List String) : Bool :=
  match short with
  | [word] =>
    let letters := word.toList.filter (· != '.')
    let initials := (long.filterMap fun w => w.toList.head?).filter Text.isCapital
    2 ≤ long.length && 2 ≤ letters.length && letters.all Char.isUpper && initials == letters
  | _ => false

/-- Whether one of two rows of words abbreviates the other. -/
def isAcronym (a b : List String) : Bool := abbreviates a b || abbreviates b a

end Discourse
