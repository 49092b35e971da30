import Discourse.Mention.Feature
import Discourse.Offset
import Discourse.Table
import Discourse.Text.Blank
/-!
# Speakers

A speaker is known by a text: the decimal id of a mention, a name, or a placeholder made from an
utterance nobody is known to speak.  `SpeakerInfo` is what the text itself says, with the part
after a comma set apart as a description, and what was learned of the speaker since.
-/

namespace Discourse

/-- What is known of one speaker. -/
structure SpeakerInfo where
  /-- The speaker as the speaker maps have it. -/
  id : String
  /-- The part before the first comma. -/
  name : String
  nameWords : List String
  /-- The part after the first comma. -/
  description? : Option String
  /-- The mentions found to name the speaker. -/
  mentions : KeySet Nat := {}
  gender : Gender := .unknown
deriving DecidableEq, Repr, Inhabited

/-- A text of ASCII digits, which stands for a mention id. -/
def isDecimalId (s : String) : Bool :=
  !s.toList.isEmpty && s.toList.all Char.isDigit

/-- The number that a row of digits writes. -/
def digitsValue (cs : List Char) : Nat :=
  cs.foldl (fun n c => 10 * n + (c.toNat - '0'.toNat)) 0

/-- The 64-bit number that a text writes in decimal, with or without a plus sign. -/
def decimalValue? (s : String) : Option Nat :=
  let digits := match s.toList with
    | '+' :: rest => rest
    | cs => cs
  if digits.isEmpty || !digits.all Char.isDigit then none
  else if digitsValue digits < wordLimit then some (digitsValue digits) else none

/-- The speaker of an utterance nobody is known to speak. -/
def placeholderSpeaker (utterance : Nat) : String := "PER" ++ toString utterance

/-- A placeholder for the speaker of some utterance. -/
def isPlaceholderSpeaker (s : String) : Bool :=
  match Text.dropStart? "PER" s with
  | some rest => isDecimalId rest
  | none => false

namespace SpeakerInfo

/-- What the text of a speaker says. -/
def ofSpeaker (speaker : String) : SpeakerInfo :=
  let (name, description?) := match Text.cutAt? ',' speaker with
    | some (name, description) => (Text.trim name, some (Text.trim description))
    | none => (Text.trim speaker, none)
  let spaced := String.ofList (name.toList.map fun c => if c = '_' then ' ' else c)
  { id := speaker, name, nameWords := Text.words spaced, description? }

/-- Whether the name is neither empty nor a mention id nor a placeholder. -/
def hasRealName (info : SpeakerInfo) : Bool :=
  !info.name.isEmpty && !isDecimalId info.name && !isPlaceholderSpeaker info.name

end SpeakerInfo

end Discourse
