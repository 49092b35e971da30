import Discourse.Attribution.Context
import Discourse.Attribution.Sieve
/-!
# The scene of a sieve

Everything that a sieve may look at while it decides on one quotation, and the choice of a best
element that several sieves make.
-/

namespace Discourse

/-- The features of a candidate by name, each with its value. -/
abbrev FeatureVector := List (String × Float)

/-- What can tell from its features, between 0 and 1, how likely a candidate is. -/
class QuoteScorer (S : Type) where
  score : S → FeatureVector → Float

/-- A weighted sum of features, to be squeezed between 0 and 1. -/
structure Scorer where
  bias : Float
  /-- The weights of the features; one that is not listed weighs nothing. -/
  weights : Table String Float
deriving Inhabited

/-- All that a sieve may look at. -/
structure Scene (S : Type := Scorer) where
  doc : Document
  lex : Lexicon
  context : Context
  settings : AttributionSettings
  scorer? : Option S
deriving Inhabited

namespace Scene

variable {S : Type}

/-- Whether a token is a reporting verb. -/
def isReportVerbAt (sc : Scene S) (token : Nat) : Bool :=
  ((sc.doc.token? token).map fun t => t.isVerb && sc.lex.isReportVerb t.baseForm).getD false

/-- Whether a token is punctuation. -/
def isPunctuationAt (sc : Scene S) (token : Nat) : Bool :=
  ((sc.doc.token? token).map isPunctuation).getD false

/-- A mention found, if it lies outside every quotation. -/
def inNarration (sc : Scene S) (found? : Option CharacterMention) : Option CharacterMention :=
  found?.filter fun m => !sc.context.inQuote m.tokenBegin

end Scene

/-- What is left of a row when each element in turn takes the place of the best so far if it is
better. -/
def best? {α : Type} (better : α → α → Bool) : List α → Option α
  | [] => none
  | a :: rest => some (rest.foldl (fun best x => if better x best then x else best) a)

end Discourse
