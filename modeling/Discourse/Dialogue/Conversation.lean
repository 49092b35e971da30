import Discourse.Dialogue.Reporting
/-!
# Speakers in a conversation

In a conversation somebody who says who he is speaks his own utterance.  For the other utterances
the text is cut into runs of sentences that open in the same utterance.  The last sentence of a
run may announce who speaks next, as the subject of a reporting verb, or may be a label, a line
without a verb that names a person.
-/

namespace Discourse

namespace Document

/-- Whether a mention is said to be the speaker, as the subject of a copula with the first-person
pronoun. -/
def namesItself (doc : Document) (m : Mention) : Bool :=
  m.predicateNominatives.toList.any fun other =>
    ((doc.mention? other).map fun p => Text.equalFold p.text "i").getD false

/-- The utterances whose speakers name themselves, with the mentions. -/
def selfNamed (doc : Document) : List (Nat × MentionId) :=
  (doc.orderedMentions.filter doc.namesItself).map fun m =>
    (((doc.headToken? m).map Token.utterance).getD 0, m.id)

/-- The utterance in which a sentence opens. -/
def openingUtterance (s : Sentence) : Nat := ((s.tokens.head?).map Token.utterance).getD 0

/-- The runs of sentences that open in one utterance, each as the utterance and the number of its
last sentence. -/
def turns (i : Nat) : List Sentence → List (Nat × Nat)
  | [] => []
  | [s] => [(openingUtterance s, i)]
  | s :: next :: rest =>
    if openingUtterance s = openingUtterance next then turns (i + 1) (next :: rest)
    else (openingUtterance s, i) :: turns (i + 1) (next :: rest)

/-- The person that a sentence without a verb names last. -/
def speakerLabel? (doc : Document) (sentence : Nat) : Option String := do
  let s ← doc.sentences[sentence]?
  if s.tokens.any Token.isVerb then none
  else
    let named := s.tokens.zipIdx.filterMap fun (t, i) =>
      if t.isPerson then doc.headed.find? (sentence, i) else none
    named.getLast?.map toString

/-- The person that a sentence names last as the subject of a reporting verb. -/
def announced? (doc : Document) (lex : Lexicon) (sentence : Nat) : Option String := do
  let s ← doc.sentences[sentence]?
  let graph ← s.dependencies?
  let subjects := s.tokens.zipIdx.flatMap fun (t, i) =>
    if lex.isReportVerb t.baseForm then
      ((graph.pairsWith "nsubj").filter fun pair => pair.1 == i).map Prod.snd
    else []
  let people := subjects.filterMap fun subject =>
    (doc.mentionHeadedAt? sentence subject).bind fun m =>
      if Text.startsWith "PER" m.ner then some m.id else none
  people.getLast?.map toString

/-- The document with the speakers of a row of runs, given who was announced before it. -/
def giveTurns (doc : Document) (lex : Lexicon) (announced? : Option String) :
    List (Nat × Nat) → Document
  | [] => doc
  | (utterance, last) :: rest =>
    let doc :=
      if doc.speakers.contains utterance then doc
      else match announced? <|> doc.speakerLabel? last with
        | some speaker => { doc with speakers := doc.speakers.insert utterance speaker }
        | none => doc
    giveTurns doc lex (doc.announced? lex last) rest

/-- The document with the speakers that a conversation names. -/
def findSpeakersInConversation (doc : Document) (lex : Lexicon) : Document :=
  let named := { doc with
    speakers := doc.selfNamed.foldl
      (fun t (entry : Nat × MentionId) => t.insert entry.1 (toString entry.2)) doc.speakers }
  named.giveTurns lex none (turns 0 doc.sentences)

end Document

end Discourse
