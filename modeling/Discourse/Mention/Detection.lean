import Discourse.Chunk
import Discourse.Document
import Discourse.Mention.Build
/-!
# Detecting mentions

Where no mentions are given they are found by rule: first the runs of named-entity tags, then the
noun phrases and pronouns of the parse, or the noun chunks where there is no parse.  A phrase
inside a named entity is no mention of its own.  Of what is found, negated and numeric phrases are
dropped, and so is the inner one of two nested mentions with one head, unless a comma or a
conjunction follows it.
-/

namespace Discourse

/-- Entity tags that do not make a mention. -/
def nonMentionTags : List String :=
  ["O", "QUANTITY", "CARDINAL", "PERCENT", "DATE", "DURATION", "TIME", "SET"]

/-- Words that deny what follows. -/
def negativeQuantifiers : List String := ["none", "no", "nothing", "not"]

/-- The entity tag, O where it is empty. -/
def Token.entityTag (t : Token) : String := if t.ner.isEmpty then "O" else t.ner

/-- Whether a token is the possessive mark. -/
def Token.isPossessive (t : Token) : Bool := t.word == "'s" && t.pos == "POS"

/-- Whether an entity tag makes a mention. -/
def isMentionTag (tag : String) : Bool := !nonMentionTags.contains tag

/-- The entity spans from token `i` on; `run?` is the start and tag of the run that `i` may
continue.  A possessive mark right after an entity belongs to it. -/
def entitySpansFrom (run? : Option (Nat × String)) (i : Nat) : List Token → List (Nat × Nat)
  | [] =>
    match run? with
    | some (start, tag) => if isMentionTag tag then [(start, i)] else []
    | none => []
  | t :: rest =>
    match run? with
    | none => entitySpansFrom (some (i, t.entityTag)) (i + 1) rest
    | some (start, tag) =>
      if t.entityTag = tag then entitySpansFrom run? (i + 1) rest
      else if !isMentionTag tag then entitySpansFrom (some (i, t.entityTag)) (i + 1) rest
      else if t.isPossessive then (start, i + 1) :: entitySpansFrom none (i + 1) rest
      else (start, i) :: entitySpansFrom (some (i, t.entityTag)) (i + 1) rest

/-- The spans of the named entities of a sentence, from left to right. -/
def Sentence.namedEntitySpans (s : Sentence) : List (Nat × Nat) := entitySpansFrom none 0 s.tokens

/-- The spans of the noun phrases and pronouns of a tree, the outer before the inner. -/
def ParseTree.nounSpans (tree : ParseTree) : List (Nat × Nat) :=
  let nouns := tree.nodes.filter fun node =>
    !node.isLeaf && (Text.startsWith "NP" node.label || Text.startsWith "PRP" node.label)
  (nouns.map Node.span).filter fun (start, stop) => start < stop

/-- The spans of the noun phrases of a sentence, from the parse or else from the chunk tags. -/
def Sentence.phraseSpans (s : Sentence) : Except Fault (List (Nat × Nat)) :=
  match s.parse? with
  | some tree => .ok tree.nounSpans
  | none =>
    (decodeChunks s.chunkTags).map fun chunks =>
      (chunks.filter fun c => c.label? == some "NP").map fun c => (c.start, c.stop)

/-- Whether a span lies within another. -/
def isInside (inner outer : Nat × Nat) : Bool := outer.1 ≤ inner.1 && inner.2 ≤ outer.2

/-- The spans found, with one more phrase unless it is known or lies in a named entity. -/
def addPhrase (named found : List (Nat × Nat)) (span : Nat × Nat) : List (Nat × Nat) :=
  if named.any (isInside span) || found.contains span then found else found ++ [span]

/-- Whether a candidate is negated, a percentage or an amount of money. -/
def Sentence.isSpurious (s : Sentence) (span : MentionSpan) : Except Stop Bool :=
  match s.tokens[span.start]? with
  | none => .error .outOfRange
  | some first =>
    if negativeQuantifiers.contains (Text.lower first.word) then .ok true
    else match span.head?.bind fun head => s.tokens[head]? with
      | none => .ok false
      | some head => .ok (head.word == "%" || head.ner == "PERCENT" || head.ner == "MONEY")

/-- Whether a comma or a conjunction follows a span. -/
def Sentence.isSeparatedAfter (s : Sentence) (span : MentionSpan) : Bool :=
  match s.tokens[span.stop]? with
  | some t => t.pos == "," || t.pos == "CC"
  | none => false

/-- Whether `outer` has the same head as `inner` and makes it superfluous. -/
def Sentence.absorbs (s : Sentence) (outer inner : MentionSpan) : Bool :=
  outer.head? == inner.head? && isInside (inner.start, inner.stop) (outer.start, outer.stop)
    && !s.isSeparatedAfter inner

/-- Candidates with their numbers, each with whether it is dropped. -/
abbrev Candidates := List (Nat × MentionSpan × Bool)

/-- Whether the candidate of a number is dropped. -/
def isDropped (candidates : Candidates) (i : Nat) : Bool :=
  candidates.any fun (j, _, dropped) => j == i && dropped

/-- The candidates after one of them has been held against every other one in turn: each that it
absorbs is dropped, while it is not dropped itself. -/
def Sentence.absorbWith (s : Sentence) (candidates : Candidates) (outer : Nat × MentionSpan) :
    Candidates :=
  if isDropped candidates outer.1 then candidates
  else candidates.map fun (j, span, dropped) =>
    (j, span, dropped || (j != outer.1 && s.absorbs outer.2 span))

/-- The candidates that are neither spurious nor absorbed by another one. -/
def Sentence.removeSpurious (s : Sentence) (spans : List MentionSpan) :
    Except Stop (List MentionSpan) := do
  let spurious ← spans.mapM s.isSpurious
  let candidates := (spans.zip spurious).zipIdx.map fun ((span, dropped), i) => (i, span, dropped)
  let numbered := spans.zipIdx.map fun (span, i) => (i, span)
  let final := numbered.foldl s.absorbWith candidates
  return (final.filter fun (_, _, dropped) => !dropped).map fun (_, span, _) => span

/-- A span with its head. -/
def Sentence.withHead (s : Sentence) (span : Nat × Nat) : Except Stop MentionSpan := do
  let head ← s.findHead span.1 span.2
  return { start := span.1, stop := span.2, head? := some head }

/-- The mention spans of one sentence. -/
def Sentence.detectMentions (s : Sentence) : Except Stop (List MentionSpan) := do
  let named := s.namedEntitySpans
  let phrases ← match s.phraseSpans with
    | .ok phrases => pure phrases
    | .error fault => throw (.fault fault)
  let candidates ← (phrases.foldl (addPhrase named) named).mapM s.withHead
  s.removeSpurious candidates

/-- The mention spans of every sentence. -/
def Document.detectMentions (doc : Document) : Except Stop (List (List MentionSpan)) :=
  doc.sentences.mapM Sentence.detectMentions

end Discourse
