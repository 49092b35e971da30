import Discourse.Attribution.Entity
import Discourse.Fault
/-!
# Canonical mentions

A quotation whose mention belongs to an entity gets the canonical mention of that entity.  The
entity is read off the first token of the mention; a mention that is no entity mention is followed
to the other mentions of its cluster and then to its speakers.
-/

namespace Discourse

namespace Document

/-- The entity at the head of a predicted mention. -/
def entityOfMention? (doc : Document) (id : MentionId) : Option Nat :=
  (doc.mention? id).bind fun m => doc.entityAt? (doc.globalIndex m.sentence m.head)

/-- The mentions through which an entity may be found: the others of the cluster, then the
speakers. -/
def linkedMentions (doc : Document) (id : MentionId) : List MentionId :=
  let members := ((doc.clusterOf? id).map doc.membersOf).getD []
  members.filter (· != id) ++ doc.speakersOf id

/-- The entity of a range of tokens. -/
def entityOfSpan? (doc : Document) (start stop : Nat) : Option Nat :=
  doc.entityAt? start
    <|> (doc.headedWithin? start stop).bind fun id =>
      (doc.linkedMentions id).findSome? doc.entityOfMention?

/-- The canonical mention of the entity mention at a place of the list; none if it points outside
the list. -/
def canonicalOf (doc : Document) (place : Nat) : Except Stop (Option TokenSpan) :=
  match doc.entities[place]? with
  | none => .error .outOfRange
  | some e =>
    .ok <| (doc.entities[e.canonical?.getD place]?).map fun canonical =>
      ⟨canonical.text, canonical.tokenBegin, canonical.tokenEnd⟩

/-- The canonical mention to set on a quotation. -/
def canonicalFor (doc : Document) (q : Quotation) : Except Stop (Option TokenSpan) :=
  match q.mention?.bind fun m => doc.entityOfSpan? m.tokenBegin m.tokenEnd with
  | none => .ok none
  | some place => doc.canonicalOf place

/-- The document with canonical mentions set on its quotations, and the number of those set. -/
def canonicalize (doc : Document) : Except Stop (Document × Nat) := do
  let found ← doc.quotes.mapM doc.canonicalFor
  let quotes := (doc.quotes.zip found).map fun (q, span?) =>
    match span? with
    | some span => q.withCanonical span
    | none => q
  return ({ doc with quotes }, found.countP Option.isSome)

end Document

end Discourse
