import Discourse.Attribution.Basic
/-!
# Reports

A report holds what is shown of an attributed document: an entry for every quotation, the speaker
of every utterance, and counts.  A speaker that is the id of a mention is shown with the text of
the mention.
-/

namespace Discourse

/-- What is shown of one quotation. -/
structure ReportEntry where
  index : Nat
  text : String
  tokenBegin : Nat
  tokenEnd : Nat
  beginChar? : Option Nat
  endChar? : Option Nat
  mention? : Option TokenSpan
  mentionKind? : Option CharacterKind
  mentionSieve? : Option String
  speaker? : Option String
  speakerSieve? : Option String
  canonical? : Option TokenSpan
deriving DecidableEq, Repr, Inhabited

/-- The entry of a quotation. -/
def Quotation.reportEntry (q : Quotation) : ReportEntry where
  index := q.index
  text := q.text
  tokenBegin := q.tokenBegin
  tokenEnd := q.tokenEnd
  beginChar? := q.beginChar?
  endChar? := q.endChar?
  mention? := q.mention?.map fun m => ⟨m.text, m.tokenBegin, m.tokenEnd⟩
  mentionKind? := q.mention?.map fun m => m.kind
  mentionSieve? := q.mention?.map QuoteMention.sieve
  speaker? := q.speaker?.map QuoteSpeaker.name
  speakerSieve? := q.speaker?.map QuoteSpeaker.sieve
  canonical? := q.canonical?

/-- The counts of a document that a report shows. -/
structure DocumentCounts where
  tokens : Nat
  sentences : Nat
  mentions : Nat
  /-- Only the clusters that have a member. -/
  clusters : Nat
  paragraphs : Nat
deriving DecidableEq, Repr, Inhabited

/-- What is shown of an attributed document. -/
structure Report where
  id : String
  genre : Genre
  /-- One entry per quotation, in document order. -/
  entries : List ReportEntry
  /-- The speaker of every utterance that has one, by utterance. -/
  speakers : List (Nat × String)
  counts : DocumentCounts
  attribution : AttributionSummary
deriving Inhabited

namespace Document

/-- A speaker as it is shown. -/
def speakerLabel (doc : Document) (speaker : String) : String :=
  match (decimalValue? speaker).bind doc.mention? with
  | some m => s!"{speaker} ({m.text})"
  | none => speaker

/-- The counts of a document. -/
def counts (doc : Document) : DocumentCounts where
  tokens := doc.tokenCount
  sentences := doc.sentences.length
  mentions := doc.mentions.size
  clusters := doc.clusters.values.countP fun members => !members.isEmpty
  paragraphs := doc.paragraphs

/-- The report of a document with the counts of its attribution. -/
def report (doc : Document) (attribution : AttributionSummary) : Report where
  id := doc.id
  genre := doc.genre
  entries := doc.quotes.map Quotation.reportEntry
  speakers := doc.speakers.entries.map fun (utterance, speaker) =>
    (utterance, doc.speakerLabel speaker)
  counts := doc.counts
  attribution

end Document

end Discourse
