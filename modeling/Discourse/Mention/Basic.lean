import Discourse.Mention.Feature
import Discourse.Table
/-!
# Mentions

A mention is a span of tokens that may refer to something.  Mentions have a total order: from left
to right, the outer before the inner, and the id decides between mentions of one span, head and
kind.
-/

namespace Discourse

/-- A candidate referring expression. -/
structure Mention where
  id : MentionId
  /-- The antecedent given with a gold mention. -/
  antecedent? : Option MentionId := none
  sentence : Nat
  /-- The first token. -/
  start : Nat
  /-- One past the last token. -/
  stop : Nat
  /-- The head token, counted within the sentence. -/
  head : Nat
  paragraph? : Option Nat := none
  utterance : Nat := 0
  text : String := ""
  headWord : String := ""
  ner : String := "O"
  goldCluster? : Option Nat := none
  /-- Whether a predicted and a gold mention were found to be the same. -/
  hasTwin : Bool := false
  /-- The cluster that holds the mention. -/
  cluster? : Option ClusterId := none
  type : MentionType := .nominal
  number : Number := .unknown
  gender : Gender := .unknown
  animacy : Animacy := .unknown
  /-- The node of the parse that covers the noun phrase of the mention. -/
  subtree? : Option Nat := none
  /-- The place in the final order of the document. -/
  place? : Option Nat := none
  appositions : KeySet MentionId := {}
  predicateNominatives : KeySet MentionId := {}
  relativePronouns : KeySet MentionId := {}
  /-- The elements, for a list. -/
  members : KeySet MentionId := {}
  /-- The lists of which the mention is an element. -/
  lists : KeySet MentionId := {}
deriving DecidableEq, Repr, Inhabited

/-- The comparison of two numbers. -/
def compareNat (a b : Nat) : Ordering :=
  if a < b then .lt else if a = b then .eq else .gt

namespace Mention

/-- The first token and one past the last. -/
def span (m : Mention) : Nat × Nat := (m.start, m.stop)

/-- The number of tokens. -/
def length (m : Mention) : Nat := m.stop - m.start

/-- Whether the mention is a pronoun. -/
def isPronominal (m : Mention) : Bool := m.type = .pronominal

/-- Whether the span lies within that of another mention of the same sentence. -/
def insideIn (m other : Mention) : Bool :=
  m.sentence == other.sentence && other.start ≤ m.start && m.stop ≤ other.stop

/-- Whether the mention is an element of a list. -/
def isMemberOf (m list : Mention) : Bool :=
  m.id != list.id && m.type != .list && list.type == .list && m.insideIn list

/-- Whether some list has both mentions as elements. -/
def sharesListWith (m other : Mention) : Bool :=
  m.lists.toList.any other.lists.contains

/-- A list comes before anything else of its span. -/
def compareKind (a b : MentionType) : Ordering :=
  match a == .list, b == .list with
  | true, false => .lt
  | false, true => .gt
  | _, _ => .eq

/-- The order of the document: from left to right, the outer before the inner. -/
def documentOrder (m other : Mention) : Ordering :=
  (compareNat m.sentence other.sentence).then <|
  (compareNat m.start other.start).then <|
  (compareNat other.stop m.stop).then <|
  (compareNat m.head other.head).then <|
  (compareKind m.type other.type).then <|
  compareNat m.id other.id

/-- Whether the mention comes strictly before another. -/
def isBefore (m other : Mention) : Bool := m.documentOrder other == .lt

end Mention

end Discourse
