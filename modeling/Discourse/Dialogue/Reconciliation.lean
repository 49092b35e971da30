import Discourse.Document
import Discourse.Text.Case
/-!
# Reconciling speakers with mentions

A speaker known by name becomes the mention that the name belongs to: the first mention whose
whole text is the name, or else the first proper mention that shares a word with it.
-/

namespace Discourse

/-- Whether the whole text of a mention is the name, blanks and case aside. -/
def Mention.matchesStrictly (m : Mention) (info : SpeakerInfo) : Bool :=
  let name := Text.withoutBlanks info.name
  !name.isEmpty && Text.equalFold name (Text.withoutBlanks m.text)

/-- Whether a proper mention shares a word with the name. -/
def Mention.matchesLoosely (m : Mention) (info : SpeakerInfo) : Bool :=
  m.type == .proper && (Text.words m.text).any fun word =>
    info.nameWords.any fun part => Text.equalFold part word

namespace Document

/-- The predicted mention that a speaker's name belongs to. -/
def mentionOfName? (doc : Document) (info : SpeakerInfo) : Option Mention :=
  doc.mentions.values.find? (fun m => m.matchesStrictly info)
    <|> doc.mentions.values.find? (fun m => m.matchesLoosely info)

/-- The speakers with a real name that belongs to a mention, and the mention. -/
def nameConversions (doc : Document) : List (String × MentionId) :=
  doc.speakerInfo.entries.filterMap fun (speaker, info) =>
    if info.hasRealName then (doc.mentionOfName? info).map fun m => (speaker, m.id) else none

/-- What is known of a speaker once a mention is found. -/
def identified (doc : Document) (info : SpeakerInfo) (id : MentionId) : SpeakerInfo :=
  { info with
    mentions := info.mentions.insert id
    gender := if info.gender = .unknown then ((doc.mention? id).map Mention.gender).getD .unknown
      else info.gender }

/-- What is known of the speakers, with one of them moved from its name to a mention. -/
def rekey (doc : Document) (known : Table String SpeakerInfo) (entry : String × MentionId) :
    Table String SpeakerInfo :=
  match known.find? entry.1 with
  | none => known
  | some info => (known.erase entry.1).insert (toString entry.2) (doc.identified info entry.2)

/-- The document with the names of speakers replaced by mention ids. -/
def reconcileSpeakers (doc : Document) : Document :=
  let conversions := doc.nameConversions
  { doc with
    speakers := doc.speakers.mapValues fun speaker =>
      ((conversions.lookup speaker).map toString).getD speaker
    speakerInfo := conversions.foldl doc.rekey doc.speakerInfo }

end Document

end Discourse
