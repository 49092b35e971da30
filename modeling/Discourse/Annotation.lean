import Discourse.Quotation
import Discourse.Table
import Discourse.Text.Quoted
import Discourse.Token
/-!
# Annotation records

An annotation record is an open store: any key may be set, and the type of the value depends on
the key.  A record lists its keys by name and shows itself as a map from names to values.  The
marks of a token and the attribution of a quotation can be read as records.
-/

namespace Discourse

/-- What can be annotated. -/
inductive AnnotationKey
  | utterance
  | speaker
  | paragraph
  | entityMentionIndex
  | useMarkedDiscourse
  | docId
  | mentionText
  | mentionBegin
  | mentionEnd
  | mentionType
  | mentionSieve
  | quoteSpeaker
  | speakerSieve
  | canonicalMention
  | canonicalMentionBegin
  | canonicalMentionEnd
deriving DecidableEq, Repr

namespace AnnotationKey

/-- The type of the values under a key. -/
abbrev Value : AnnotationKey → Type
  | utterance | paragraph | entityMentionIndex => Nat
  | mentionBegin | mentionEnd | canonicalMentionBegin | canonicalMentionEnd => Nat
  | useMarkedDiscourse => Bool
  | mentionType => CharacterKind
  | speaker | docId | mentionText | mentionSieve => String
  | quoteSpeaker | speakerSieve | canonicalMention => String

/-- The name of a key. -/
def name : AnnotationKey → String
  | utterance => "Utterance"
  | speaker | quoteSpeaker => "Speaker"
  | paragraph => "Paragraph"
  | entityMentionIndex => "EntityMentionIndex"
  | useMarkedDiscourse => "UseMarkedDiscourse"
  | docId => "DocId"
  | mentionText => "MentionText"
  | mentionBegin => "MentionBegin"
  | mentionEnd => "MentionEnd"
  | mentionType => "MentionType"
  | mentionSieve => "MentionSieve"
  | speakerSieve => "SpeakerSieve"
  | canonicalMention => "CanonicalMention"
  | canonicalMentionBegin => "CanonicalMentionBegin"
  | canonicalMentionEnd => "CanonicalMentionEnd"

/-- The keys that may be named from outside; of the two speakers the one of a token. -/
def common : List AnnotationKey :=
  [.utterance, .speaker, .paragraph, .entityMentionIndex, .useMarkedDiscourse, .docId,
    .mentionText, .mentionBegin]

/-- The common key with a name. -/
def named? (text : String) : Option AnnotationKey := common.find? fun key => key.name == text

/-- A value as a record shows it: texts are quoted. -/
def showValue : (key : AnnotationKey) → key.Value → String
  | utterance, n | paragraph, n | entityMentionIndex, n => toString (n : Nat)
  | mentionBegin, n | mentionEnd, n => toString (n : Nat)
  | canonicalMentionBegin, n | canonicalMentionEnd, n => toString (n : Nat)
  | useMarkedDiscourse, b => if b then "true" else "false"
  | mentionType, .name => "Name"
  | mentionType, .pronoun => "Pronoun"
  | mentionType, .animateNoun => "AnimateNoun"
  | speaker, s | docId, s | mentionText, s | mentionSieve, s => Text.quoted s
  | quoteSpeaker, s | speakerSieve, s | canonicalMention, s => Text.quoted s

end AnnotationKey

/-- A key with a value of its type. -/
structure Annotation where
  key : AnnotationKey
  value : key.Value

/-- Annotations with pairwise different keys, by name. -/
structure AnnotationRecord where
  entries : List Annotation := []

namespace AnnotationRecord

/-- The value of a key in a list of annotations. -/
def getIn (key : AnnotationKey) : List Annotation → Option key.Value
  | [] => none
  | entry :: rest => if h : entry.key = key then some (h ▸ entry.value) else getIn key rest

/-- A list of annotations with one more at its place by name. -/
def placeIn (entry : Annotation) : List Annotation → List Annotation
  | [] => [entry]
  | other :: rest =>
    if KeyOrder.before entry.key.name other.key.name then entry :: other :: rest
    else other :: placeIn entry rest

/-- The value of a key. -/
def get (r : AnnotationRecord) (key : AnnotationKey) : Option key.Value := getIn key r.entries

/-- Whether a key is set. -/
def contains (r : AnnotationRecord) (key : AnnotationKey) : Bool := (r.get key).isSome

/-- The record without a key. -/
def remove (r : AnnotationRecord) (key : AnnotationKey) : AnnotationRecord :=
  ⟨r.entries.filter fun entry => entry.key != key⟩

/-- The record with a key set, in place of any value it had. -/
def set (r : AnnotationRecord) (key : AnnotationKey) (value : key.Value) : AnnotationRecord :=
  ⟨placeIn ⟨key, value⟩ (r.remove key).entries⟩

/-- The record with a key set if there is a value for it. -/
def setIf (r : AnnotationRecord) (key : AnnotationKey) : Option key.Value → AnnotationRecord
  | none => r
  | some value => r.set key value

/-- The number of keys set. -/
def size (r : AnnotationRecord) : Nat := r.entries.length

/-- The names of the keys set, in order. -/
def names (r : AnnotationRecord) : List String := r.entries.map fun entry => entry.key.name

/-- The record as a map from quoted names to values. -/
def display (r : AnnotationRecord) : String :=
  let shown := r.entries.map fun entry =>
    Text.quoted entry.key.name ++ ": " ++ entry.key.showValue entry.value
  "\x7b" ++ ", ".intercalate shown ++ "\x7d"

end AnnotationRecord

/-- The marks of a token as a record. -/
def Token.annotations (t : Token) : AnnotationRecord :=
  AnnotationRecord.setIf {} .utterance t.utterance?
    |>.setIf .speaker t.speaker?
    |>.setIf .paragraph t.paragraph?
    |>.setIf .entityMentionIndex t.entity?

/-- The attribution of a quotation as a record. -/
def Quotation.annotations (q : Quotation) : AnnotationRecord :=
  AnnotationRecord.setIf {} .mentionText (q.mention?.map fun m => m.text)
    |>.setIf .mentionBegin (q.mention?.map fun m => m.tokenBegin)
    |>.setIf .mentionEnd (q.mention?.map fun m => m.tokenEnd)
    |>.setIf .mentionType (q.mention?.map fun m => m.kind)
    |>.setIf .mentionSieve (q.mention?.map fun m => m.sieve)
    |>.setIf .quoteSpeaker (q.speaker?.map QuoteSpeaker.name)
    |>.setIf .speakerSieve (q.speaker?.map QuoteSpeaker.sieve)
    |>.setIf .canonicalMention (q.canonical?.map TokenSpan.text)
    |>.setIf .canonicalMentionBegin (q.canonical?.map TokenSpan.tokenBegin)
    |>.setIf .canonicalMentionEnd (q.canonical?.map TokenSpan.tokenEnd)

end Discourse
