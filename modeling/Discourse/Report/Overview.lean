import Discourse.Preparation
import Discourse.Report.Readable
/-!
# Overviews

An overview shows what the preparation of a document found, before any quotation is attributed:
its speakers, the counts of its mentions, and its clusters of several mentions.
-/

namespace Discourse

namespace Document

/-- The name of the speaker of an utterance, as far as it is known. -/
def speakerName (doc : Document) (speaker : String) : String :=
  ((doc.speakerInfo.find? speaker).map SpeakerInfo.name).getD speaker

/-- A line for every utterance that has a speaker. -/
def speakerLines (doc : Document) : List String :=
  doc.speakers.entries.map fun (utterance, speaker) =>
    s!"Utterance {utterance}: {doc.speakerName speaker}"

/-- A line for every cluster of several mentions. -/
def clusterLines (doc : Document) : List String :=
  (doc.clusters.entries.filter fun entry => 1 < entry.2.size).map fun (id, members) =>
    let texts := (members.toList.filterMap doc.mention?).map Mention.text
    s!"Cluster {id}: " ++ " | ".intercalate texts

/-- The lines of the overview of a prepared document. -/
def overview (doc : Document) (summary : PreparationSummary) : List String :=
  [s!"Document {doc.id}",
      "==================",
      s!"Type: {doc.genre.label}",
      s!"Sentences: {doc.sentences.length}",
      s!"Tokens: {doc.tokenCount}",
      s!"Paragraphs: {summary.paragraphs}",
      s!"Utterances: {summary.utterances}",
      "",
      "Speakers",
      "--------"]
    ++ doc.speakerLines
    ++ ["",
      "Mentions",
      "--------",
      s!"Predicted: {summary.predicted}",
      s!"Gold: {summary.gold} ({summary.twins} twins)",
      s!"Speaker pairs: {doc.speakerPairs.size}",
      "",
      "Clusters",
      "--------"]
    ++ doc.clusterLines
    ++ ["", s!"Quotes: {doc.quotes.length}", ""]

end Document

end Discourse
