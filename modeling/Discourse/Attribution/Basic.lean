import Discourse.Attribution.Canonical
import Discourse.Attribution.Scoring
import Discourse.Attribution.Speaker
/-!
# Attributing quotations

Every sieve of the two chains goes once over the quotations that are still without a mention, or
without a speaker, in order, and writes down what it finds; later quotations see it.  A last pass
adds the canonical mentions.
-/

namespace Discourse

variable {S : Type}

/-- What a sieve finds for the quotation of an index. -/
def QuoteSieve.resolve [QuoteScorer S] (sieve : QuoteSieve) (sc : Scene S) (index : Nat) :
    Except Stop (Option Resolution) :=
  match sc.doc.quotes[index]? with
  | none => .ok none
  | some q =>
    match sieve with
    | .selfReference => .ok (sc.selfReference? q)
    | .trigram => .ok (sc.trigram? q)
    | .dependency => sc.dependency q
    | .oneName => .ok (sc.oneName? q)
    | .vocative => .ok (sc.vocative? q index)
    | .paragraphEnd => .ok (sc.paragraphEnd? q)
    | .supervised => .ok (sc.bestCandidate? q)
    | .conversational => .ok (sc.conversational? index true)
    | .looseConversational => .ok (sc.conversational? index false)
    | .closest => .ok (sc.closest? q)

/-- What a sieve finds for the quotation of an index. -/
def SpeakerSieve.resolve? (sieve : SpeakerSieve) (sc : Scene S) (index : Nat) : Option String :=
  match sc.doc.quotes[index]? with
  | none => none
  | some q =>
    match sieve with
    | .deterministic => sc.deterministic? q
    | .looseConversational => sc.loosePartner? index
    | .topSpeaker => sc.topSpeaker? q
    | .majority => sc.majority?

/-- The counts of an attribution. -/
structure AttributionSummary where
  quotes : Nat := 0
  withMention : Nat := 0
  withSpeaker : Nat := 0
  withCanonical : Nat := 0
  /-- How many quotations each sieve gave a mention. -/
  quoteSieves : Table String Nat := {}
  /-- How many quotations each sieve gave a speaker. -/
  speakerSieves : Table String Nat := {}
deriving DecidableEq, Repr, Inhabited

namespace Scene

/-- The scene with one quotation changed. -/
def modifyQuote (sc : Scene S) (index : Nat) (f : Quotation → Quotation) : Scene S :=
  { sc with doc := { sc.doc with quotes := sc.doc.quotes.modify index f } }

/-- Whether the quotation of an index has a mention. -/
def hasMention (sc : Scene S) (index : Nat) : Bool :=
  ((sc.doc.quotes[index]?).bind Quotation.mention?).isSome

/-- Whether the quotation of an index has a speaker. -/
def hasSpeaker (sc : Scene S) (index : Nat) : Bool :=
  ((sc.doc.quotes[index]?).bind Quotation.speaker?).isSome

/-- A sieve at one quotation: the scene after it, and the count of quotations resolved. -/
def sieveMention [QuoteScorer S] (sieve : QuoteSieve) (state : Scene S × Nat) (index : Nat) :
    Except Stop (Scene S × Nat) :=
  if state.1.hasMention index then .ok state
  else do
    match ← sieve.resolve state.1 index with
    | none => return state
    | some found =>
      return (state.1.modifyQuote index fun q => q.withMention found sieve.key, state.2 + 1)

/-- A sieve at one quotation: the scene after it, and the count of quotations resolved. -/
def sieveSpeaker (sieve : SpeakerSieve) (state : Scene S × Nat) (index : Nat) :
    Scene S × Nat :=
  if state.1.hasSpeaker index then state
  else match sieve.resolve? state.1 index with
    | none => state
    | some name =>
      (state.1.modifyQuote index fun q => q.withSpeaker name sieve.key, state.2 + 1)

/-- A sieve over all quotations.  Without a scorer the supervised sieve is left out altogether. -/
def passMentions [QuoteScorer S] (state : Scene S × Table String Nat) (sieve : QuoteSieve) :
    Except Stop (Scene S × Table String Nat) :=
  if sieve = .supervised ∧ state.1.scorer?.isNone then .ok state
  else do
    let (sc, count) ← (List.range state.1.doc.quotes.length).foldlM (sieveMention sieve)
      (state.1, 0)
    return (sc, state.2.insert sieve.key count)

/-- A sieve over all quotations. -/
def passSpeakers (state : Scene S × Table String Nat) (sieve : SpeakerSieve) :
    Scene S × Table String Nat :=
  let (sc, count) := (List.range state.1.doc.quotes.length).foldl (sieveSpeaker sieve) (state.1, 0)
  (sc, state.2.insert sieve.key count)

end Scene

namespace Document

/-- The document with quotations and entity mentions found where none were given. -/
def readyForAttribution (doc : Document) : Document :=
  let quoted := if doc.quotes.isEmpty then { doc with quotes := doc.detectQuotes } else doc
  let named :=
    if quoted.entities.isEmpty then { quoted with entities := quoted.entityMentions } else quoted
  named.indexEntities

/-- The scene of a document as it is. -/
def scene (doc : Document) (lex : Lexicon) (settings : AttributionSettings)
    (scorer? : Option S) : Scene S :=
  { doc, lex, context := doc.context lex, settings, scorer? }

/-- The document with its quotations attributed, and the counts. -/
def attributeQuotes [QuoteScorer S] (doc : Document) (lex : Lexicon)
    (settings : AttributionSettings) (scorer? : Option S) :
    Except Stop (Document × AttributionSummary) := do
  let start := doc.readyForAttribution.scene lex settings scorer?
  let (mentioned, quoteSieves) ← settings.quoteSieves.foldlM Scene.passMentions (start, {})
  let (spoken, speakerSieves) := settings.speakerSieves.foldl Scene.passSpeakers (mentioned, {})
  let (final, withCanonical) ← spoken.doc.canonicalize
  return (final,
    { quotes := start.doc.quotes.length
      withMention := final.quotes.countP fun q => q.mention?.isSome
      withSpeaker := final.quotes.countP fun q => q.speaker?.isSome
      withCanonical
      quoteSieves
      speakerSieves })

end Document

end Discourse
