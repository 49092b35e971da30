import Discourse.Attribution.Quote
import Discourse.Document
import Discourse.Fault
import Discourse.Mention.Span
import Discourse.Tree.Reader
/-!
# Annotated texts

An annotated text is what a tokenizer, taggers and parsers hand over: tokens sentence by sentence
with their analyses, the spans of mentions, and perhaps entity mentions and quotations.  It becomes
a document once it is checked: a parse has to have one leaf for every token, an entity mention has
to start at a token, and a quotation has to be a range of tokens that is not empty.
-/

namespace Discourse

/-- A sentence as it is handed over. -/
structure AnnotatedSentence where
  tokens : List Token
  /-- The parse in bracketed form. -/
  bracketed? : Option String := none
  basic? : Option DependencyGraph := none
  enhanced? : Option DependencyGraph := none
  chunkTags : List String := []
  predicted : List MentionSpan := []
  gold? : Option (List MentionSpan) := none
deriving Repr, Inhabited

/-- An entity mention as it is handed over. -/
structure AnnotatedEntity where
  /-- The first token, counted within the document. -/
  tokenBegin : Nat
  /-- One past the last token. -/
  tokenEnd : Nat
  entityType : String
  canonical? : Option Nat := none
deriving Repr, Inhabited

/-- A text as it is handed over. -/
structure AnnotatedText where
  id : String
  marked : Bool := false
  fromColumns : Bool := false
  sentences : List AnnotatedSentence
  entities : List AnnotatedEntity := []
  /-- The first token and one past the last, counted within the document. -/
  quotes : List (Nat × Nat) := []
deriving Repr, Inhabited

/-- The parse of the sentence with a given number, if there is one. -/
def AnnotatedSentence.readParse (s : AnnotatedSentence) (number : Nat) :
    Except ReadError (Option ParseTree) :=
  match s.bracketed? with
  | none => .ok none
  | some text =>
    match ParseTree.parse text with
    | .error fault => .error ((ReadError.ofFault fault).within s!"Bad parse in sentence {number}")
    | .ok tree =>
      if tree.leafCount = s.tokens.length then .ok (some tree)
      else .error (.invalid
        s!"Parse of sentence {number} has {tree.leafCount} leaves for {s.tokens.length} tokens")

/-- The sentence with a given number, with its parse read. -/
def AnnotatedSentence.build (s : AnnotatedSentence) (number : Nat) :
    Except ReadError Sentence :=
  (s.readParse number).map fun parse? =>
    { tokens := s.tokens, parse?, basic? := s.basic?, enhanced? := s.enhanced?
      chunkTags := s.chunkTags }

namespace AnnotatedText

/-- The spans handed over.  A text with gold mentions in one sentence has gold mentions, if only
none, in all. -/
def mentions (text : AnnotatedText) : RawMentions where
  predicted := text.sentences.map AnnotatedSentence.predicted
  gold? :=
    if text.sentences.any fun s => s.gold?.isSome then
      some (text.sentences.map fun s => s.gold?.getD [])
    else none

/-- The entity mention over a range of tokens of a document. -/
def buildEntity (doc : Document) (e : AnnotatedEntity) : Except ReadError EntityMention :=
  match doc.locate? e.tokenBegin with
  | none => .error (.invalid s!"Entity mention starts outside the document at token {e.tokenBegin}")
  | some (sentence, _) =>
    .ok
      { text := doc.textBetween e.tokenBegin e.tokenEnd
        sentence
        tokenBegin := e.tokenBegin
        tokenEnd := e.tokenEnd
        entityType := e.entityType
        canonical? := e.canonical? }

/-- The quotation with a given index over a range of tokens of a document. -/
def buildQuote (doc : Document) (range : Nat × Nat) (index : Nat) : Except ReadError Quotation :=
  let (start, stop) := range
  if start < stop ∧ stop ≤ doc.tokenCount then .ok (doc.quotationOf index start stop)
  else .error (.invalid s!"Quote {index} has an invalid token range {start}..{stop}")

/-- The document of an annotated text, with its mentions still as spans. -/
def build (text : AnnotatedText) : Except ReadError (Document × RawMentions) := do
  let sentences ← text.sentences.zipIdx.mapM fun (s, number) => s.build number
  let doc := { Document.ofSentences text.id sentences with
    marked := text.marked
    fromColumns := text.fromColumns }
  let entities ← text.entities.mapM (buildEntity doc)
  let quotes ← text.quotes.zipIdx.mapM fun (range, index) => buildQuote doc range index
  return ({ doc with entities, quotes }, text.mentions)

end AnnotatedText

end Discourse
