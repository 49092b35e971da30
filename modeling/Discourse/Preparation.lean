import Discourse.Coreference.Clusters
import Discourse.Dialogue.Basic
import Discourse.Mention.Detection
import Discourse.Mention.Registry
import Discourse.Relation
/-!
# Preparing a document

The analyses in their order: mentions are detected if none are given, then registered, sorted and
related; the discourse is analysed; and every predicted mention gets a cluster and its place.  The
first reason to stop ends the preparation.
-/

namespace Discourse

/-- How a document is prepared. -/
structure PreparationSettings where
  twins : TwinPolicy := .strict
  /-- More characters than this between two tokens separate paragraphs. -/
  paragraphGap : Nat := 2
  /-- Whether mentions are detected where none are given. -/
  detect : Bool := true
deriving DecidableEq, Repr, Inhabited

/-- The counts of a finished preparation. -/
structure PreparationSummary where
  predicted : Nat
  gold : Nat
  twins : Nat
  utterances : Nat
  paragraphs : Nat
  speakers : Nat
deriving DecidableEq, Repr, Inhabited

namespace Document

/-- The mentions given, with detected ones where detection is wanted and no predicted ones are
given. -/
def completeMentions (doc : Document) (settings : PreparationSettings) (raw : RawMentions) :
    Except Stop RawMentions :=
  if settings.detect && raw.predicted.all List.isEmpty then
    doc.detectMentions.map fun predicted => { raw with predicted }
  else .ok raw

/-- The document with everything that depends on its mentions alone. -/
def analyse (doc : Document) (lex : Lexicon) (settings : PreparationSettings) :
    Except Stop Document := do
  let numbered ← doc.reorderMentions.markRelations.setParagraphs settings.paragraphGap
  return (numbered.processDiscourse lex).initializeClusters

/-- The counts of a document. -/
def summary (doc : Document) (twins : Nat) : PreparationSummary where
  predicted := doc.mentions.size
  gold := doc.goldMentions.size
  twins
  utterances := doc.maxUtterance + 1
  paragraphs := doc.paragraphs
  speakers := doc.speakerInfo.size

/-- The gold clusters of a document that has gold mentions. -/
def gatherGoldClusters (doc : Document) : Document × Except Fault Unit :=
  if doc.gold?.isSome then doc.extractGoldClusters else (doc, .ok ())

/-- The document prepared.  After a fault the document has what came before it. -/
def prepare (doc : Document) (lex : Lexicon) (settings : PreparationSettings)
    (raw : RawMentions) : Document × Except Stop PreparationSummary :=
  match doc.completeMentions settings raw with
  | .error stop => (doc, .error stop)
  | .ok raw =>
    match doc.initializeMentions lex settings.twins raw with
    | (doc, .error stop) => (doc, .error stop)
    | (doc, .ok twins) =>
      match doc.analyse lex settings with
      | .error stop => (doc, .error stop)
      | .ok doc =>
        match doc.gatherGoldClusters with
        | (doc, .error fault) => (doc, .error (.fault fault))
        | (doc, .ok ()) =>
          let doc := doc.assignPlaces
          (doc, .ok (doc.summary twins))

end Document

end Discourse
