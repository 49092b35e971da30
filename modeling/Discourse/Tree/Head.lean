import Discourse.Tree.Basic
/-!
# Head constituents

The head of a phrase is found by the rules of its category, tried in order.  A rule searches the
constituents from one side for the first whose category it lists.  Where no rule applies, the head
of a noun phrase is its last constituent and the head of any other phrase its first one.
Following heads downward ends at a word, or at a bracket with nothing in it.
-/

namespace Discourse

/-- The side from which a rule searches. -/
inductive Side
  | left
  | right
deriving DecidableEq, Repr

/-- One search over the constituents of a phrase. -/
structure HeadRule where
  side : Side
  categories : List String
deriving DecidableEq, Repr

/-- The rules for a category of phrase, in the order in which they are tried. -/
def headRules : String → List HeadRule
  | "NP" | "NML" | "NX" =>
    [⟨.right, ["NN", "NNP", "NNPS", "NNS", "NX", "POS", "JJR", "PRP", "PRP$"]⟩,
      ⟨.left, ["NP"]⟩,
      ⟨.right, ["$", "ADJP", "PRN"]⟩,
      ⟨.right, ["CD"]⟩,
      ⟨.right, ["JJ", "JJS", "RB", "QP"]⟩]
  | "VP" =>
    [⟨.left, ["TO"]⟩, ⟨.left, ["VBD"]⟩, ⟨.left, ["VBN"]⟩, ⟨.left, ["MD"]⟩, ⟨.left, ["VBZ"]⟩,
      ⟨.left, ["VB"]⟩, ⟨.left, ["VBG"]⟩, ⟨.left, ["VBP"]⟩, ⟨.left, ["VP"]⟩, ⟨.left, ["ADJP"]⟩,
      ⟨.left, ["NN", "NNS", "NP"]⟩]
  | "S" | "SINV" | "SQ" =>
    [⟨.left, ["TO"]⟩, ⟨.left, ["VP"]⟩, ⟨.left, ["S"]⟩, ⟨.left, ["SBAR"]⟩, ⟨.left, ["ADJP"]⟩,
      ⟨.left, ["UCP"]⟩, ⟨.left, ["NP"]⟩]
  | "SBAR" =>
    [⟨.left, ["WHNP", "WHPP", "WHADVP", "WHADJP"]⟩, ⟨.left, ["IN"]⟩, ⟨.left, ["DT"]⟩,
      ⟨.left, ["S", "SQ", "SINV", "SBAR", "FRAG"]⟩]
  | "PP" => [⟨.left, ["IN", "TO", "VBG", "VBN", "RP", "FW"]⟩]
  | "ADJP" =>
    [⟨.left, ["NNS"]⟩, ⟨.left, ["QP"]⟩, ⟨.left, ["NN"]⟩, ⟨.left, ["ADVP"]⟩, ⟨.left, ["JJ"]⟩,
      ⟨.left, ["VBN", "VBG"]⟩, ⟨.left, ["ADJP"]⟩, ⟨.left, ["JJR", "JJS"]⟩]
  | "WHNP" => [⟨.left, ["WDT", "WP", "WP$", "WHADJP", "WHPP", "WHNP"]⟩]
  | _ => []

/-- A constituent as its phrase sees it: its number, its label and the node its heads lead to. -/
structure Constituent where
  id : Nat
  label : String
  head : Nat
deriving DecidableEq, Repr, Inhabited

/-- The constituent that one rule picks. -/
def HeadRule.pick? (rule : HeadRule) (kids : List Constituent) : Option Constituent :=
  let listed := fun (kid : Constituent) => rule.categories.contains (basicCategory kid.label)
  match rule.side with
  | .left => kids.find? listed
  | .right => kids.reverse.find? listed

/-- The head among the constituents of a phrase with a given label; none if there are none. -/
def headAmong? (label : String) (kids : List Constituent) : Option Constituent :=
  match kids with
  | [] => none
  | [only] => some only
  | _ =>
    let category := basicCategory label
    match (headRules category).findSome? fun rule => rule.pick? kids with
    | some kid => some kid
    | none => if category = "NP" then kids.getLast? else kids.head?

end Discourse
