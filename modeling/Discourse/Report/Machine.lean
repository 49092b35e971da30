import Discourse.Json.Writer
import Discourse.Report.Basic
/-!
# Reports for programs

A report as a JSON value, with null for everything that is not known.
-/

namespace Discourse

open Json

/-- A genre in capital letters. -/
def Genre.code : Genre → String
  | .conversation => "CONVERSATION"
  | .article => "ARTICLE"

/-- A text with its range of tokens as a record. -/
def TokenSpan.toJson (span : TokenSpan) : Json :=
  ofFields
    [("text", ofString span.text),
      ("token_begin", ofNat span.tokenBegin),
      ("token_end", ofNat span.tokenEnd)]

/-- An entry as a record. -/
def ReportEntry.toJson (e : ReportEntry) : Json :=
  ofFields
    [("index", ofNat e.index),
      ("text", ofString e.text),
      ("token_begin", ofNat e.tokenBegin),
      ("token_end", ofNat e.tokenEnd),
      ("begin_char", ofOption ofNat e.beginChar?),
      ("end_char", ofOption ofNat e.endChar?),
      ("mention", ofOption TokenSpan.toJson e.mention?),
      ("mention_type", ofOption (fun kind => ofString kind.label) e.mentionKind?),
      ("mention_sieve", ofOption ofString e.mentionSieve?),
      ("speaker", ofOption ofString e.speaker?),
      ("speaker_sieve", ofOption ofString e.speakerSieve?),
      ("canonical", ofOption TokenSpan.toJson e.canonical?)]

/-- An utterance with its speaker as a record. -/
def speakerJson (entry : Nat × String) : Json :=
  ofFields [("utterance", ofNat entry.1), ("speaker", ofString entry.2)]

/-- Counts by sieve as a record. -/
def tallyJson (tally : Table String Nat) : Json :=
  ofFields (tally.entries.map fun (key, count) => (key, ofNat count))

/-- All counts of a report as one record. -/
def Report.metadata (r : Report) : Json :=
  ofFields
    [("total_tokens", ofNat r.counts.tokens),
      ("total_sentences", ofNat r.counts.sentences),
      ("total_mentions", ofNat r.counts.mentions),
      ("total_clusters", ofNat r.counts.clusters),
      ("num_paragraphs", ofNat r.counts.paragraphs),
      ("quotes", ofNat r.attribution.quotes),
      ("quotes_with_mention", ofNat r.attribution.withMention),
      ("quotes_with_speaker", ofNat r.attribution.withSpeaker),
      ("quotes_with_canonical", ofNat r.attribution.withCanonical),
      ("mention_sieves", tallyJson r.attribution.quoteSieves),
      ("speaker_sieves", tallyJson r.attribution.speakerSieves)]

/-- The report as a record. -/
def Report.toJson (r : Report) : Json :=
  ofFields
    [("doc_id", ofString r.id),
      ("doc_type", ofString r.genre.code),
      ("quotes", ofList ReportEntry.toJson r.entries),
      ("utterance_speakers", ofList speakerJson r.speakers),
      ("metadata", r.metadata)]

/-- The text of the report for programs. -/
def Report.machineText (r : Report) : String := r.toJson.pretty

end Discourse
