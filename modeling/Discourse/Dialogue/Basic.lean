import Discourse.Dialogue.Conversation
import Discourse.Dialogue.Reconciliation
/-!
# Who speaks

The analysis of the discourse as a whole: utterances, genre, the speaker of every utterance, and
the pairs of a mention and the mention of its speaker.  Marks that came with the tokens count only
if the document says so.
-/

namespace Discourse

namespace Document

/-- The document without the marks of the discourse that came with its tokens. -/
def dropMarks (doc : Document) : Document :=
  doc.mapTokens fun t => { t with speaker? := none, utterance? := none }

/-- The speaker of every utterance as its first token has it. -/
def firstSpeakers (doc : Document) : Table Nat String :=
  doc.tokens.foldl (fun t token => t.insertNew token.utterance (token.speaker?.getD "")) {}

/-- The document with a speaker for every utterance. -/
def findSpeakers (doc : Document) (lex : Lexicon) : Document :=
  let searched :=
    if doc.marked then doc
    else match doc.genre with
      | .conversation => doc.findSpeakersInConversation lex
      | .article => doc.findSpeakersInArticle lex
  { searched with
    speakers := searched.firstSpeakers.entries.foldl
      (fun t (utterance, speaker) => t.insertNew utterance speaker) searched.speakers }

/-- The document with an entry for every speaker. -/
def describeSpeakers (doc : Document) : Document :=
  { doc with
    speakerInfo := doc.speakers.values.foldl
      (fun t speaker => t.insertNew speaker (SpeakerInfo.ofSpeaker speaker)) doc.speakerInfo }

/-- The document with the speaker of its utterance at every token. -/
def markSpeakers (doc : Document) : Document :=
  doc.mapTokens fun t =>
    match doc.speakers.find? t.utterance with
    | some speaker => { t with speaker? := some speaker }
    | none => t

/-- The mention that speaks the head token of a mention, if its speaker is a mention id. -/
def speakerMention? (doc : Document) (m : Mention) : Option MentionId := do
  let speaker ← (doc.headToken? m).bind Token.speaker?
  if !isDecimalId speaker then none
  else
    let id ← decimalValue? speaker
    if doc.mentions.contains id then some id else none

/-- The document with the pairs of mention and speaker.  The speakers of a marked document are
names and no ids, unless it was read from columns. -/
def findSpeakerPairs (doc : Document) : Document :=
  if !doc.fromColumns && doc.marked then doc
  else
    let pairs := doc.mentions.values.filterMap fun m =>
      (doc.speakerMention? m).map fun speaker => (m.id, speaker)
    { doc with speakerPairs := doc.speakerPairs.insertAll pairs }

/-- The document with utterances, genre and the marks of its mentions. -/
def markDiscourse (doc : Document) : Document :=
  let marked := (if doc.marked then doc else doc.dropMarks).setUtterances
  let marked := marked.markHeads fun head? m =>
    { m with utterance := (head?.map Token.utterance).getD 0 }
  { marked with
    genre := marked.findGenre
    maxUtterance := (marked.tokens.map Token.utterance).foldl max 0 }

/-- The document with its discourse analysed. -/
def processDiscourse (doc : Document) (lex : Lexicon) : Document :=
  (((doc.markDiscourse.findSpeakers lex).describeSpeakers.reconcileSpeakers).markSpeakers
    ).findSpeakerPairs

end Document

end Discourse
