import Discourse.Fault
import Discourse.Lexicon.Basic
import Discourse.Mention.Basic
import Discourse.Mention.Span
import Discourse.Token
/-!
# From spans to mentions

A span inside its sentence becomes a mention: it gets a head, and from the head its type, number,
gender and animacy.  The head is that of the bracket of the parse that covers exactly the span;
failing that, the last noun or pronoun of the span; failing that, its last token.
-/

namespace Discourse

/-- Whether a token is tagged as a noun or a personal pronoun. -/
def isNounOrPronoun (t : Token) : Bool :=
  Text.startsWith "NN" t.pos || Text.startsWith "PRP" t.pos

/-- The place of the last element that satisfies `p`. -/
def lastIndexWhere? {α : Type} (p : α → Bool) (xs : List α) : Option Nat :=
  (xs.reverse.findIdx? p).map fun i => xs.length - 1 - i

namespace Sentence

/-- The head that the parse gives to a span, if it lies in the span. -/
def headByParse? (s : Sentence) (start stop : Nat) : Option Nat := do
  let tree ← s.parse?
  let node ← tree.covering? start stop
  let head ← tree.node? node.head
  let leaf ← head.leaf?
  if start ≤ leaf ∧ leaf < stop then some leaf else none

/-- The last noun or pronoun of a span, or else its last token. -/
def headByTag (s : Sentence) (start stop : Nat) : Nat :=
  match lastIndexWhere? isNounOrPronoun ((s.tokens.take stop).drop start) with
  | some i => start + i
  | none => stop - 1

/-- The head token of a span. -/
def findHead (s : Sentence) (start stop : Nat) : Except Stop Nat :=
  match s.headByParse? start stop with
  | some head => .ok head
  | none =>
    if start ≤ stop ∧ stop ≤ s.length then .ok (s.headByTag start stop) else .error .outOfRange

end Sentence

/-- The type of a mention of `length` tokens, by its head: a pronoun, a name, or another noun
phrase. -/
def inferType (lex : Lexicon) (length : Nat) (head : Token) : MentionType :=
  let single := length == 1
  if Text.startsWith "PRP" head.pos || (single && Text.startsWith "WP" head.pos)
      || (single && lex.isPronoun head.word) then .pronominal
  else if Text.startsWith "NNP" head.pos || (head.ner != "O" && !head.ner.isEmpty) then .proper
  else .nominal

/-- The type of a mention by the place of its head. -/
def Sentence.inferTypeAt (s : Sentence) (lex : Lexicon) (length head : Nat) :
    Except Stop MentionType :=
  match s.tokens[head]? with
  | some token => .ok (inferType lex length token)
  | none => .error .outOfRange

/-- Whether a span lies in its sentence and has a token. -/
def MentionSpan.isWithin (span : MentionSpan) (s : Sentence) : Bool :=
  span.start < span.stop && span.stop ≤ s.length

/-- The mention of a span whose first token and head token are known. -/
def mentionOfTokens (lex : Lexicon) (s : Sentence) (sentence : Nat) (id : MentionId)
    (span : MentionSpan) (headAt : Nat) (first head : Token) : Mention :=
  let type := span.type?.getD (inferType lex (span.stop - span.start) head)
  { id, sentence
    antecedent? := span.antecedent?
    start := span.start
    stop := span.stop
    head := headAt
    text := s.spanText span.start span.stop
    headWord := head.word
    ner := head.ner
    goldCluster? := span.goldCluster?
    type
    number := lex.numberOf head.word head.pos
    gender := lex.genderOf (if type = .proper then first.word else head.word)
    animacy := lex.animacyOf head.word head.ner }

/-- The mention of a span; none if the span is not within its sentence, and a fault if its head is
not. -/
def buildMention (lex : Lexicon) (s : Sentence) (sentence : Nat) (id : MentionId)
    (span : MentionSpan) : Except Stop (Option Mention) :=
  if !span.isWithin s then .ok none
  else do
    let headAt ← match span.head? with
      | some head => pure head
      | none => s.findHead span.start span.stop
    match s.tokens[span.start]?, s.tokens[headAt]? with
    | some first, some head =>
      return some (mentionOfTokens lex s sentence id span headAt first head)
    | _, _ => throw (.fault (.missingHeadLeaf id headAt))

/-- Mentions of spans with their sentences, numbered from `next` on, up to the first fault. -/
def buildMentions (lex : Lexicon) (next : MentionId) :
    List (Nat × Sentence × MentionSpan) → List Mention × Option Stop
  | [] => ([], none)
  | (sentence, s, span) :: rest =>
    match buildMention lex s sentence next span with
    | .error stop => ([], some stop)
    | .ok none => buildMentions lex next rest
    | .ok (some m) =>
      let (built, stop?) := buildMentions lex (next + 1) rest
      (m :: built, stop?)

/-- The spans of a row per sentence, each with its sentence. -/
def spansOf (sentences : List Sentence) (rows : List (List MentionSpan)) :
    List (Nat × Sentence × MentionSpan) :=
  (sentences.zip rows).zipIdx.flatMap fun ((s, spans), i) => spans.map fun span => (i, s, span)

/-- Mentions put into one row per sentence. -/
def rowsOf (sentences : Nat) (built : List Mention) : List (List Mention) :=
  (List.range sentences).map fun i => built.filter fun m => m.sentence == i

end Discourse
