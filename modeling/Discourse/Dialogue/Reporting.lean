import Discourse.Dialogue.Utterance
import Discourse.Lexicon.Basic
/-!
# Reporting verbs

Narration names the speaker of a quotation as the subject of a reporting verb near it.  The verb
is looked for in the sentence where the quotation starts, in the sentence where it ends, and then
in the neighbouring sentences where the quotation reaches to the edge of its own.  A subject that
heads a mention is given by the mention's id, and any other subject by its word.
-/

namespace Discourse

namespace Document

/-- The subject of a token of a sentence, as a mention id or a word. -/
def subjectOf? (doc : Document) (graph : DependencyGraph) (sentence governor : Nat) :
    Option String := do
  let subject ← graph.child? governor "nsubj"
  match doc.headed.find? (sentence, subject) with
  | some id => some (toString id)
  | none => (doc.tokenAt? sentence subject).map Token.word

/-- Whether a token can stand in a chain of verbs, as an auxiliary does. -/
def isVerbal (t : Token) : Bool := t.isVerb || Text.startsWith "MD" t.pos

/-- The subject of the first of a chain of verbs that has one. -/
def subjectAbove? (doc : Document) (s : Sentence) (graph : DependencyGraph) (sentence : Nat) :
    List Nat → Option String
  | [] => none
  | ancestor :: rest =>
    if ((s.tokens[ancestor]?).map isVerbal).getD false then
      match doc.subjectOf? graph sentence ancestor with
      | some speaker => some speaker
      | none => subjectAbove? doc s graph sentence rest
    else none

/-- Whether a token is a reporting verb in narration. -/
def isNarratedReport (lex : Lexicon) (t : Token) : Bool :=
  t.utterance == 0 && t.isVerb && lex.isReportVerb t.baseForm

/-- The subject of a reporting verb or of the verbs it depends on. -/
def reportedBy? (doc : Document) (lex : Lexicon) (s : Sentence) (graph : DependencyGraph)
    (sentence place : Nat) : Option String :=
  match s.tokens[place]? with
  | none => none
  | some t =>
    if isNarratedReport lex t then
      doc.subjectOf? graph sentence place
        <|> doc.subjectAbove? s graph sentence (graph.pathToRoot place)
    else none

/-- The subject of the first reporting verb with one among the tokens of a sentence from `start`
up to `stop`. -/
def findSpeaker? (doc : Document) (lex : Lexicon) (sentence start stop : Nat) : Option String := do
  let s ← doc.sentences[sentence]?
  let graph ← s.dependencies?
  (List.range' start (min stop s.length - start)).findSome?
    (doc.reportedBy? lex s graph sentence)

/-- The number of tokens of a sentence. -/
def sentenceLength (doc : Document) (sentence : Nat) : Nat :=
  ((doc.sentences[sentence]?).map Sentence.length).getD 0

/-- The speaker that narration names around a stretch of quoted tokens. -/
def quotationSpeaker? (doc : Document) (lex : Lexicon) (first after : Position) : Option String :=
  doc.findSpeaker? lex first.1 0 first.2
    <|> doc.findSpeaker? lex after.1 after.2 (doc.sentenceLength after.1)
    <|> (if first.2 ≤ 1 ∧ 0 < first.1 then
          doc.findSpeaker? lex (first.1 - 1) 0 (doc.sentenceLength (first.1 - 1))
        else none)
    <|> (if doc.sentenceLength after.1 ≤ after.2 + 2 ∧ after.1 + 1 < doc.sentences.length then
          doc.findSpeaker? lex (after.1 + 1) 0 (doc.sentenceLength (after.1 + 1))
        else none)

end Document

/-- A stretch of tokens outside utterance 0. -/
structure Stretch where
  /-- The utterance of its first token. -/
  utterance : Nat
  first : Position
  /-- The first token after it. -/
  after : Position
deriving DecidableEq, Repr

/-- The stretches of a row of tokens; `since?` is the utterance and the position at which the
stretch being read began, and `last` the position that ends one still open at the end. -/
def stretchesFrom (last : Position) (since? : Option (Nat × Position)) :
    List (Token × Position) → List Stretch
  | [] =>
    match since? with
    | some (utterance, first) => [⟨utterance, first, last⟩]
    | none => []
  | (t, position) :: rest =>
    match since? with
    | none =>
      if t.utterance = 0 then stretchesFrom last none rest
      else stretchesFrom last (some (t.utterance, position)) rest
    | some (utterance, first) =>
      if t.utterance = 0 then ⟨utterance, first, position⟩ :: stretchesFrom last none rest
      else stretchesFrom last since? rest

namespace Document

/-- All tokens with their positions. -/
def positioned (doc : Document) : List (Token × Position) :=
  doc.sentences.zipIdx.flatMap fun (s, i) => s.tokens.zipIdx.map fun (t, j) => (t, (i, j))

/-- The position of the last token of the last sentence. -/
def lastPosition (doc : Document) : Position :=
  let last := doc.sentences.length - 1
  (last, doc.sentenceLength last - 1)

/-- The stretches of a document outside utterance 0. -/
def stretches (doc : Document) : List Stretch :=
  stretchesFrom doc.lastPosition none doc.positioned

/-- The document with the speakers that narration names. -/
def findSpeakersInArticle (doc : Document) (lex : Lexicon) : Document :=
  let found := doc.stretches.filterMap fun st =>
    (doc.quotationSpeaker? lex st.first st.after).map fun speaker => (st.utterance, speaker)
  { doc with
    speakers := found.foldl (fun t (utterance, speaker) => t.insert utterance speaker)
      doc.speakers }

/-- Whether `m` is said to speak the first-person pronoun `pronoun` of the same sentence: exactly
one glyph stands between their heads, and `m` is the subject of a reporting verb. -/
def isReportedSpeaker (doc : Document) (lex : Lexicon) (m pronoun : Mention) : Bool :=
  lex.isFirstPerson pronoun.text && pronoun.number != .plural && pronoun.sentence == m.sentence
    && match doc.sentences[m.sentence]? with
      | none => false
      | some s =>
        let between := (s.tokens.take (max m.head pronoun.head)).drop
          (min m.head pronoun.head + 1)
        (between.countP fun t => isGlyph t.word) == 1
          && match s.dependencies? with
            | none => false
            | some graph => (graph.parents m.head).any fun (governor, relation) =>
              relation == "nsubj"
                && ((s.tokens[governor]?).map fun t => lex.isReportVerb t.baseForm).getD false

end Document

end Discourse
