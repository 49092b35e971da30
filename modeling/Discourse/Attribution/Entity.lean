import Discourse.Document
/-!
# Entity mentions

The runs of one named-entity tag are entity mentions.  The canonical mention of each is the one of
the same type that has all its words and the most words in all, the first of several such.  Tokens
know the last entity mention that covers them.
-/

namespace Discourse

/-- The runs of one entity tag from token `i` on, each with its range and tag; `run?` is the start
and tag of the run that `i` may continue. -/
def tagRunsFrom (run? : Option (Nat × String)) (i : Nat) : List Token → List (Nat × Nat × String)
  | [] =>
    match run? with
    | some (start, tag) => [(start, i, tag)]
    | none => []
  | t :: rest =>
    match run? with
    | none => tagRunsFrom (some (i, t.ner)) (i + 1) rest
    | some (start, tag) =>
      if t.ner = tag then tagRunsFrom run? (i + 1) rest
      else (start, i, tag) :: tagRunsFrom (some (i, t.ner)) (i + 1) rest

/-- Whether a tag names an entity. -/
def isEntityTag (tag : String) : Bool := !tag.isEmpty && tag != "O"

/-- The entity mentions of a sentence whose first token has the number `offset`. -/
def Sentence.entityMentions (s : Sentence) (sentence offset : Nat) : List EntityMention :=
  ((tagRunsFrom none 0 s.tokens).filter fun run => isEntityTag run.2.2).map
    fun (start, stop, tag) =>
      { text := s.spanText start stop
        sentence
        tokenBegin := offset + start
        tokenEnd := offset + stop
        entityType := tag
        canonical? := none }

/-- The words of an entity mention in small letters. -/
def EntityMention.smallWords (e : EntityMention) : List String := (Text.words e.text).map Text.lower

/-- The better of the best mention so far and another one as the canonical mention of `e`; each is
given with its place and its words. -/
def betterCanonical (e : EntityMention × List String)
    (best : Nat × List String) (other : (EntityMention × List String) × Nat) : Nat × List String :=
  let ((mention, words), place) := other
  if mention.entityType == e.1.entityType && e.2.all words.contains
      && best.2.length < words.length then (place, words)
  else best

/-- Entity mentions with their canonical mentions found. -/
def linkCanonical (entities : List EntityMention) : List EntityMention :=
  let worded := entities.map fun e => (e, e.smallWords)
  worded.zipIdx.map fun (e, place) =>
    { e.1 with
      canonical? := some (worded.zipIdx.foldl (betterCanonical e) (place, e.2)).1 }

namespace Document

/-- The entity mentions that the tags of the tokens make. -/
def entityMentions (doc : Document) : List EntityMention :=
  linkCanonical <| doc.sentences.zipIdx.flatMap fun (s, i) => s.entityMentions i (doc.offset i)

/-- The place of the last entity mention that covers a token. -/
def coveringEntity? (entities : List EntityMention) (token : Nat) : Option Nat :=
  ((entities.zipIdx.filter fun (e, _) => e.tokenBegin ≤ token && token < e.tokenEnd).map
    Prod.snd).getLast?

/-- The document with its tokens pointing at the entity mentions that cover them.  A token that
none covers is left as it is. -/
def indexEntities (doc : Document) : Document :=
  doc.withTokens <| doc.tokens.zipIdx.map fun (t, token) =>
    match coveringEntity? doc.entities token with
    | some place => { t with entity? := some place }
    | none => t

/-- The entity mention at a token. -/
def entityAt? (doc : Document) (token : Nat) : Option Nat :=
  (doc.token? token).bind Token.entity?

end Document

end Discourse
