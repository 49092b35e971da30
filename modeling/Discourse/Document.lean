import Discourse.Mention.Basic
import Discourse.Offset
import Discourse.Quotation
import Discourse.Speaker
import Discourse.Token
/-!
# Documents

A document owns the sentences and all that is found out about them: its mentions by id and by
place, their clusters, its speakers, quotations and entity mentions.

Tokens have two addresses, the sentence with a place in it and one number counted through the
whole document.  `locate?` and `globalIndex` lead from the one to the other.
-/

namespace Discourse

/-- A conversation moves from speaker to speaker; in an article narration resumes. -/
inductive Genre
  | conversation
  | article
deriving DecidableEq, Repr, Inhabited

/-- A document and the state of its analysis. -/
structure Document where
  id : String
  sentences : List Sentence
  /-- Whether speaker and utterance marks were given with the tokens and are to be kept. -/
  marked : Bool := false
  /-- Whether the document was read from columns, so that speakers are raw metadata. -/
  fromColumns : Bool := false
  genre : Genre := .article
  /-- The ids of the predicted mentions, sentence by sentence. -/
  predicted : List (List MentionId)
  /-- The ids of the gold mentions, sentence by sentence, if there are gold data. -/
  gold? : Option (List (List MentionId)) := none
  /-- The predicted mentions by id. -/
  mentions : Table MentionId Mention := {}
  goldMentions : Table MentionId Mention := {}
  /-- The sentence of each predicted mention and its place in the sentence's list. -/
  positions : Table MentionId Position := {}
  /-- The positions before any mention is taken out. -/
  allPositions : Table MentionId Position := {}
  /-- The mention headed at a token of a sentence. -/
  headed : Table Position MentionId := {}
  clusters : Table ClusterId (KeySet MentionId) := {}
  goldClusters : Table Nat (KeySet MentionId) := {}
  /-- Pairs of mentions that may never share a cluster. -/
  incompatible : KeySet (MentionId × MentionId) := {}
  /-- Pairs of clusters that may never be merged. -/
  incompatibleClusters : KeySet (ClusterId × ClusterId) := {}
  /-- Known answers to the question whether one cluster abbreviates another. -/
  acronyms : Table (ClusterId × ClusterId) Bool := {}
  /-- The gold links once they have been computed. -/
  goldLinks? : Option (List (MentionId × MentionId)) := none
  /-- The speaker of each utterance. -/
  speakers : Table Nat String := {}
  speakerInfo : Table String SpeakerInfo := {}
  /-- Mentions with the mention of their speaker. -/
  speakerPairs : KeySet (MentionId × MentionId) := {}
  /-- Whether some token came with a speaker. -/
  speakersGiven : Bool := false
  maxUtterance : Nat := 0
  paragraphs : Nat := 0
  quotes : List Quotation := []
  entities : List EntityMention := []
deriving Inhabited

namespace Document

/-- A document with nothing found out yet. -/
def ofSentences (id : String) (sentences : List Sentence) : Document :=
  { id, sentences, predicted := sentences.map fun _ => [] }

/-- All tokens in order. -/
def tokens (doc : Document) : List Token := doc.sentences.flatMap Sentence.tokens

/-- The number of tokens of a row of sentences. -/
def tokensIn : List Sentence → Nat
  | [] => 0
  | s :: rest => s.length + tokensIn rest

/-- The number of tokens. -/
def tokenCount (doc : Document) : Nat := tokensIn doc.sentences

/-- Tokens dealt out to sentences of the same lengths as before. -/
def dealTokens : List Sentence → List Token → List Sentence
  | [], _ => []
  | s :: rest, tokens =>
    { s with tokens := tokens.take s.length } :: dealTokens rest (tokens.drop s.length)

/-- The document with other tokens in the same places. -/
def withTokens (doc : Document) (tokens : List Token) : Document :=
  { doc with sentences := dealTokens doc.sentences tokens }

/-- The document with every token changed. -/
def mapTokens (doc : Document) (f : Token → Token) : Document :=
  { doc with sentences := doc.sentences.map fun s => { s with tokens := s.tokens.map f } }

/-- The number of tokens before a sentence. -/
def offset (doc : Document) (sentence : Nat) : Nat :=
  tokensIn (doc.sentences.take sentence)

/-- The sentence and place of a token in a row of sentences that starts with number `first`. -/
def locateFrom (first : Nat) : List Sentence → Nat → Option Position
  | [], _ => none
  | s :: rest, token =>
    if token < s.length then some (first, token)
    else locateFrom (first + 1) rest (token - s.length)

/-- The sentence and place of the token with a given number. -/
def locate? (doc : Document) (token : Nat) : Option Position := locateFrom 0 doc.sentences token

/-- The number of the token at a place of a sentence.  The place is one of the sentence or its end,
so that the sum is no more than the number of tokens. -/
def globalIndex (doc : Document) (sentence place : Nat) : Nat :=
  if sentence < doc.sentences.length then doc.offset sentence + place else place

/-- The token at a place of a sentence. -/
def tokenAt? (doc : Document) (sentence place : Nat) : Option Token :=
  (doc.sentences[sentence]?).bind fun s => s.tokens[place]?

/-- The token with a given number. -/
def token? (doc : Document) (token : Nat) : Option Token := doc.tokens[token]?

/-- The words of the tokens from `start` up to `stop`, joined by spaces. -/
def textBetween (doc : Document) (start stop : Nat) : String :=
  " ".intercalate (((doc.tokens.take stop).drop start).map Token.word)

/-- A predicted mention. -/
def mention? (doc : Document) (id : MentionId) : Option Mention := doc.mentions.find? id

/-- The document with one predicted mention changed. -/
def modifyMention (doc : Document) (id : MentionId) (f : Mention → Mention) : Document :=
  { doc with mentions := doc.mentions.modify id f }

/-- The predicted mentions in the order of the sentences' lists. -/
def orderedMentions (doc : Document) : List Mention :=
  doc.predicted.flatten.filterMap doc.mention?

/-- The head token of a mention. -/
def headToken? (doc : Document) (m : Mention) : Option Token := doc.tokenAt? m.sentence m.head

/-- The predicted mention headed at a token of a sentence. -/
def mentionHeadedAt? (doc : Document) (sentence head : Nat) : Option Mention :=
  (doc.headed.find? (sentence, head)).bind doc.mention?

/-- The id of the mention headed at the first token of a range that heads one. -/
def headedWithin? (doc : Document) (start stop : Nat) : Option MentionId :=
  (List.range' start (min stop doc.tokenCount - start)).findSome? fun token =>
    (doc.locate? token).bind doc.headed.find?

/-- Row `i` of a list of rows with one more element, after empty rows up to it. -/
def pushAt {α : Type} (rows : List (List α)) (i : Nat) (a : α) : List (List α) :=
  let rows := rows ++ List.replicate (i + 1 - rows.length) []
  rows.modify i fun row => row ++ [a]

/-- The document with one more predicted mention, last in its sentence. -/
def addMention (doc : Document) (m : Mention) : Document :=
  { doc with
    predicted := pushAt doc.predicted m.sentence m.id
    mentions := doc.mentions.insert m.id m }

/-- The document with one more gold mention, last in its sentence. -/
def addGoldMention (doc : Document) (m : Mention) : Document :=
  { doc with
    gold? := some (pushAt (doc.gold?.getD []) m.sentence m.id)
    goldMentions := doc.goldMentions.insert m.id m }

/-- The document with the listed mentions changed by what their head tokens say. -/
def markHeads (doc : Document) (f : Option Token → Mention → Mention) : Document :=
  doc.orderedMentions.foldl (fun d m => d.modifyMention m.id (f (doc.headToken? m))) doc

/-- The cluster that holds a predicted mention. -/
def clusterOf? (doc : Document) (id : MentionId) : Option ClusterId :=
  (doc.mention? id).bind Mention.cluster?

/-- The members of a cluster; none if it does not exist. -/
def membersOf (doc : Document) (cluster : ClusterId) : List MentionId :=
  ((doc.clusters.find? cluster).getD {}).toList

/-- The mentions recorded as speakers of a mention. -/
def speakersOf (doc : Document) (id : MentionId) : List MentionId :=
  (doc.speakerPairs.toList.filter fun pair => pair.1 == id).map Prod.snd

end Document

end Discourse
