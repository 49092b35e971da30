import Discourse.Document
import Discourse.Text.Blank
/-!
# Relations between mentions

Within a sentence a mention may be an element of a list, stand in apposition to another mention,
or be said to be the same by a copula.  The last two are read off the dependency graph as pairs of
head tokens, and hold only between mentions that no list joins.
-/

namespace Discourse

namespace DependencyGraph

/-- The head tokens of appositions, the noun before the apposition. -/
def appositionPairs (g : DependencyGraph) : List (Nat × Nat) := g.pairsWith "appos"

/-- The subject of a predicate, be it a noun or a clause. -/
def subject? (g : DependencyGraph) (predicate : Nat) : Option Nat :=
  g.child? predicate "nsubj" <|> g.child? predicate "csubj"

/-- The noun that the relative clause of a predicate modifies. -/
def modifiedNoun? (g : DependencyGraph) (predicate : Nat) : Option Nat :=
  match g.parent? predicate with
  | some (noun, relation) =>
    if relation == "acl:relcl" || relation == "rcmod" then some noun else none
  | none => none

/-- The head tokens that a copula joins, the subject first.  A relative pronoun as the subject
gives way to the noun that its clause modifies. -/
def copulaPairs (g : DependencyGraph) (tokens : List Token) : List (Nat × Nat) :=
  (g.pairsWith "cop").filterMap fun (predicate, _) =>
    (g.subject? predicate).map fun subject =>
      let relative := ((tokens[subject]?).map fun t => Text.startsWith "W" t.pos).getD false
      let subject := if relative then (g.modifiedNoun? predicate).getD subject else subject
      (subject, predicate)

end DependencyGraph

/-- Whether a list joins two mentions. -/
def Mention.inListRelation (m other : Mention) : Bool :=
  m.isMemberOf other || other.isMemberOf m || m.sharesListWith other

/-- Whether `other` stands in apposition to `m`, given the pairs of head tokens. -/
def Mention.isApposition (pairs : List (Nat × Nat)) (m other : Mention) : Bool :=
  !m.inListRelation other && pairs.contains (m.head, other.head)
    && (m.head != other.head || other.insideIn m)

/-- Whether a copula says that `other` is `m`, given the pairs of head tokens. -/
def Mention.isPredicate (pairs : List (Nat × Nat)) (m other : Mention) : Bool :=
  !m.inListRelation other && pairs.contains (m.head, other.head)

namespace Document

/-- The pairs of different listed mentions that a test holds of. -/
def pairsWhere (doc : Document) (ids : List MentionId) (test : Mention → Mention → Bool) :
    List (MentionId × MentionId) :=
  ids.flatMap fun a => ids.filterMap fun b =>
    match doc.mention? a, doc.mention? b with
    | some m, some other => if a != b && test m other then some (a, b) else none
    | _, _ => none

/-- The document with the elements of the lists of one sentence marked. -/
def markLists (doc : Document) (ids : List MentionId) : Document :=
  (doc.pairsWhere ids Mention.isMemberOf).foldl
    (fun d (member, list) =>
      (d.modifyMention list fun m => { m with members := m.members.insert member }).modifyMention
        member fun m => { m with lists := m.lists.insert list })
    doc

/-- The document with the appositions of one sentence marked at the apposed mention. -/
def markAppositions (doc : Document) (ids : List MentionId) (pairs : List (Nat × Nat)) :
    Document :=
  (doc.pairsWhere ids (Mention.isApposition pairs)).foldl
    (fun d (a, b) => d.modifyMention b fun m => { m with appositions := m.appositions.insert a })
    doc

/-- The document with the predicate nominatives of one sentence marked at the predicate. -/
def markPredicates (doc : Document) (ids : List MentionId) (pairs : List (Nat × Nat)) : Document :=
  (doc.pairsWhere ids (Mention.isPredicate pairs)).foldl
    (fun d (a, b) => d.modifyMention b fun m =>
      { m with predicateNominatives := m.predicateNominatives.insert a })
    doc

/-- The document with the relations among the mentions of one sentence marked. -/
def markSentence (doc : Document) (ids : List MentionId) (sentence : Nat) : Document :=
  let doc := doc.markLists ids
  match doc.sentences[sentence]? with
  | none => doc
  | some s =>
    match s.dependencies? with
    | none => doc
    | some graph =>
      (doc.markAppositions ids graph.appositionPairs).markPredicates ids
        (graph.copulaPairs s.tokens)

/-- The document with all relations between mentions of one sentence marked. -/
def markRelations (doc : Document) : Document :=
  doc.predicted.zipIdx.foldl (fun d (ids, sentence) => d.markSentence ids sentence) doc

end Document

end Discourse
