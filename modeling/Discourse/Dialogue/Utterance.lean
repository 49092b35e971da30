import Discourse.Dialogue.Paragraph
import Discourse.Glyph
/-!
# Utterances

Utterances number the turns of a text.  A machine walks over the tokens: a change of speaker
starts a new utterance, and so does an opening glyph, for what it quotes; the glyph itself, and
what follows the quotation, belong to the utterance outside.

A text is a conversation if it leaves utterance 0 and never comes back to it.
-/

namespace Discourse

/-- The state of the machine between two tokens. -/
structure UtteranceState where
  /-- The utterance of the tokens being read. -/
  current : Nat := 0
  /-- The utterance to which a closing glyph returns. -/
  outside : Nat := 0
  inQuote : Bool := false
  /-- The largest utterance so far. -/
  largest : Nat := 0
  /-- Whether some token has named a speaker. -/
  speakersGiven : Bool := false
  previousSpeaker? : Option String := none
deriving DecidableEq, Repr

namespace UtteranceState

/-- Whether a token names a speaker; a hyphen names nobody. -/
def namesSpeaker (speaker? : Option String) : Bool :=
  match speaker? with
  | some speaker => speaker != "-"
  | none => false

/-- Whether a token lacks a speaker of its own: none, an empty one or a placeholder. -/
def lacksSpeaker (speaker? : Option String) : Bool :=
  match speaker? with
  | some speaker => speaker.isEmpty || isPlaceholderSpeaker speaker
  | none => true

/-- Whether a token opens a quotation. -/
def opens (st : UtteranceState) (t : Token) : Bool :=
  isOpeningGlyph t.word || (!st.inQuote && isNeutralGlyph t.word)

/-- Whether a token closes a quotation. -/
def closes (st : UtteranceState) (t : Token) : Bool :=
  isClosingGlyph t.word || (st.inQuote && isNeutralGlyph t.word)

/-- The state once the speaker of a token has been looked at. -/
def hear (st : UtteranceState) (t : Token) : UtteranceState :=
  { st with speakersGiven := st.speakersGiven || namesSpeaker t.speaker? }

/-- Whether the speaker changes at a token. -/
def changesSpeaker (st : UtteranceState) (t : Token) : Bool :=
  st.speakersGiven && t.speaker?.isSome && t.speaker? != st.previousSpeaker?

/-- The state after a change of speaker or an opening glyph at a token, if there is either. -/
def mint (st : UtteranceState) (t : Token) : UtteranceState :=
  if st.changesSpeaker t then
    let current := st.largest + 1
    { st with
      current
      outside := if st.opens t then current + 1 else current
      previousSpeaker? := t.speaker? }
  else if st.opens t then { st with current := st.largest + 1 }
  else st

/-- The state after a closing glyph, if the token is one. -/
def leave (st : UtteranceState) (closing : Bool) : UtteranceState :=
  if closing then { st with current := st.outside, inQuote := false } else st

/-- The token with its marks, and the state after it. -/
def step (st : UtteranceState) (t : Token) : Token × UtteranceState :=
  let opening := st.opens t
  let closing := st.closes t
  let st := ((st.hear t).mint t).leave closing
  let st := { st with largest := max st.largest st.current }
  let utterance := if opening then st.outside else st.current
  let speaker? :=
    if lacksSpeaker t.speaker? || st.inQuote then some (placeholderSpeaker utterance)
    else t.speaker?
  ({ t with utterance? := some utterance, speaker? },
    { st with inQuote := st.inQuote || opening })

/-- A row of tokens with their marks, and the state after it. -/
def run (st : UtteranceState) : List Token → List Token × UtteranceState
  | [] => ([], st)
  | t :: rest =>
    let (marked, next) := st.step t
    let (others, final) := next.run rest
    (marked :: others, final)

end UtteranceState

namespace Document

/-- The document with its tokens marked by utterance, and with placeholders for the speakers of
tokens that have none or are quoted. -/
def setUtterances (doc : Document) : Document :=
  let start : UtteranceState := { previousSpeaker? := doc.tokens.head?.bind Token.speaker? }
  let (tokens, final) := start.run doc.tokens
  { doc.withTokens tokens with speakersGiven := final.speakersGiven }

/-- The genre, from the utterances of the tokens. -/
def genreOf (tokens : List Token) : Genre :=
  match tokens.dropWhile fun t => t.utterance == 0 with
  | [] => .article
  | spoken => if spoken.any fun t => t.utterance == 0 then .article else .conversation

/-- The genre of a document. -/
def findGenre (doc : Document) : Genre := genreOf doc.tokens

end Document

end Discourse
