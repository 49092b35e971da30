import Discourse.Attribution.Scene
import Discourse.Dialogue.Reporting
/-!
# Sieves that read the text around a quotation

These sieves look for patterns: a pronoun whose speaker is known, a mention and a reporting verb
beside the quotation, the subject of a reporting verb in its sentences, the only name in them, and
a name by which the speaker of a neighbouring quotation is addressed.
-/

namespace Discourse

/-- Words after which a name may be an address. -/
def addressOpeners : List String := [",", "o", "oh"]

/-- Words before which a name may be an address. -/
def addressClosers : List String := [",", ".", "!", "?", ";"]

namespace Scene

variable {S : Type}

/-- Whether the speaker of a pronoun is known: by a recorded pair, or by a mention of the same
sentence that is said to speak it. -/
def hasKnownSpeaker (sc : Scene S) (pronoun : CharacterMention) : Bool :=
  match (sc.doc.locate? pronoun.tokenBegin).bind sc.doc.headed.find? with
  | none => false
  | some id =>
    sc.doc.speakerPairs.toList.any (fun pair => pair.1 == id)
      || match sc.doc.mention? id with
        | none => false
        | some m =>
          let others := ((sc.doc.predicted[m.sentence]?).getD []).filterMap sc.doc.mention?
          others.any fun other => other.id != id && sc.doc.isReportedSpeaker sc.lex other m

/-- The first first-person pronoun of the quotation whose speaker is known. -/
def selfReference? (sc : Scene S) (q : Quotation) : Option Resolution :=
  let pronouns := (sc.context.within q).filter fun m =>
    m.kind == .pronoun && sc.lex.isFirstPersonSingular m.text
  (pronouns.find? sc.hasKnownSpeaker).map CharacterMention.resolution

/-- The mention that starts at a token, or right after a determiner there. -/
def mentionFrom? (sc : Scene S) (token : Nat) : Option CharacterMention :=
  sc.inNarration (sc.context.startingAt? token)
    <|> (if ((sc.doc.token? token).map fun t => t.pos == "DT").getD false then
          sc.inNarration (sc.context.startingAt? (token + 1))
        else none)

/-- The first token from a given one on that is no comma. -/
def skipCommas (sc : Scene S) (token : Nat) : Nat :=
  token + ((sc.doc.tokens.drop token).takeWhile fun t => t.pos == ",").length

/-- The token before which the punctuation that ends just before a given token starts. -/
def skipPunctuationBack (sc : Scene S) : Nat → Nat
  | 0 => 0
  | token + 1 => if sc.isPunctuationAt token then sc.skipPunctuationBack token else token + 1

/-- A mention and a reporting verb, in either order, right after the quotation. -/
def trigramAfter? (sc : Scene S) (q : Quotation) : Option CharacterMention :=
  let after := sc.skipCommas q.tokenEnd
  ((sc.mentionFrom? after).filter fun m => sc.isReportVerbAt m.tokenEnd)
    <|> (if sc.isReportVerbAt after then sc.mentionFrom? (after + 1) else none)

/-- A mention and a reporting verb, in either order, right before the quotation. -/
def trigramBefore? (sc : Scene S) (q : Quotation) : Option CharacterMention :=
  match sc.skipPunctuationBack q.tokenBegin with
  | 0 => none
  | last + 1 =>
    ((sc.inNarration (sc.context.endingAt? (last + 1))).filter fun m =>
        0 < m.tokenBegin && sc.isReportVerbAt (m.tokenBegin - 1))
      <|> (if sc.isReportVerbAt last then sc.inNarration (sc.context.endingAt? last) else none)

/-- A mention and a reporting verb right beside the quotation, after it rather than before. -/
def trigram? (sc : Scene S) (q : Quotation) : Option Resolution :=
  (sc.trigramAfter? q <|> sc.trigramBefore? q).map CharacterMention.resolution

/-- The mention that is the subject of a token, if the token is a reporting verb in narration.  The
place of the subject is as the dependencies have it. -/
def reportingSubject? (sc : Scene S) (graph : DependencyGraph) (offset : Nat)
    (entry : Token × Nat) : Option (Except Stop CharacterMention) :=
  let (t, i) := entry
  if sc.context.inQuote (offset + i) || !t.isVerb || !sc.lex.isReportVerb t.baseForm then none
  else match graph.child? i "nsubj" with
    | none => none
    | some subject =>
      match addOffset offset subject with
      | .error stop => some (.error stop)
      | .ok token => (sc.inNarration (sc.context.covering? token)).map .ok

/-- The first subject of a reporting verb in a sentence. -/
def sentenceSubject? (sc : Scene S) (sentence : Nat) : Option (Except Stop CharacterMention) := do
  let s ← sc.doc.sentences[sentence]?
  let graph ← s.dependencies?
  s.tokens.zipIdx.findSome? (sc.reportingSubject? graph (sc.doc.offset sentence))

/-- The subject of a reporting verb in the first or the last sentence of the quotation. -/
def dependency (sc : Scene S) (q : Quotation) : Except Stop (Option Resolution) :=
  match (KeySet.ofList [q.sentenceBegin, q.sentenceEnd]).toList.findSome? sc.sentenceSubject? with
  | none => .ok none
  | some found => found.map fun m => some m.resolution

/-- The name of the character that a mention names, or else its own text. -/
def characterOrText (sc : Scene S) (m : CharacterMention) : String :=
  ((sc.context.characterFor? m.text).map Character.name).getD m.text

/-- The name nearest to the quotation, if all names in narration of its sentences are names of one
character. -/
def oneName? (sc : Scene S) (q : Quotation) : Option Resolution :=
  let names := sc.context.narration.filter fun m =>
    m.kind == .name && q.sentenceBegin ≤ m.sentence && m.sentence ≤ q.sentenceEnd
  if (KeySet.ofList (names.map sc.characterOrText)).size = 1 then
    let distance := fun (m : CharacterMention) => (m.distanceTo? q).getD 0
    (best? (fun m best => distance m < distance best) names).map CharacterMention.resolution
  else none

/-- The word of a token in small letters; empty if there is no such token. -/
def smallWordAt (sc : Scene S) (token : Nat) : String :=
  ((sc.doc.token? token).map fun t => Text.lower t.word).getD ""

/-- Whether a name stands between the marks of an address. -/
def isAddress (sc : Scene S) (m : CharacterMention) : Bool :=
  let before := if m.tokenBegin = 0 then "" else sc.smallWordAt (m.tokenBegin - 1)
  let after := sc.smallWordAt m.tokenEnd
  (addressOpeners.contains before || isGlyph before)
    && (addressClosers.contains after || isGlyph after)

/-- The names by which somebody is addressed in a quotation. -/
def vocatives (sc : Scene S) (q : Quotation) : List CharacterMention :=
  ((sc.context.within q).filter fun m => m.kind == .name).filter sc.isAddress

/-- The names by which somebody is addressed in another quotation, if that is in another
paragraph. -/
def vocativesOfNeighbour (sc : Scene S) (q : Quotation) (other? : Option Quotation) :
    List CharacterMention :=
  match other? with
  | none => []
  | some other =>
    if sc.context.quoteParagraph? other == sc.context.quoteParagraph? q then []
    else sc.vocatives other

/-- Whoever is addressed in the quotation before answers in this one, and whoever is addressed in
the next one has spoken this one. -/
def vocative? (sc : Scene S) (q : Quotation) (index : Nat) : Option Resolution :=
  let previous? := if index = 0 then none else sc.doc.quotes[index - 1]?
  ((sc.vocativesOfNeighbour q previous?).head?
    <|> (sc.vocativesOfNeighbour q sc.doc.quotes[index + 1]?).getLast?).map
      CharacterMention.resolution

end Scene

end Discourse
