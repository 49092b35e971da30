/-!
# Features of mentions

The closed classes by which mentions are told apart: how they are expressed, and what is known of
their number, gender and animacy.  Each value has a name, by which it is written.
-/

namespace Discourse

/-- Mentions are numbered within their document. -/
abbrev MentionId := Nat

/-- Clusters are numbered by the mention they started with. -/
abbrev ClusterId := Nat

/-- A sentence and a place within it. -/
abbrev Position := Nat × Nat

/-- How a mention is expressed. -/
inductive MentionType
  | pronominal
  | nominal
  | proper
  | list
deriving DecidableEq, Repr, Inhabited

/-- Grammatical number. -/
inductive Number
  | singular
  | plural
  | unknown
deriving DecidableEq, Repr, Inhabited

/-- Grammatical gender. -/
inductive Gender
  | male
  | female
  | neutral
  | unknown
deriving DecidableEq, Repr, Inhabited

/-- Whether something lives. -/
inductive Animacy
  | animate
  | inanimate
  | unknown
deriving DecidableEq, Repr, Inhabited

/-! ## Names -/

/-- The type in a word. -/
def MentionType.label : MentionType → String
  | .pronominal => "pronominal"
  | .nominal => "nominal"
  | .proper => "proper"
  | .list => "list"

/-- The number in a word. -/
def Number.label : Number → String
  | .singular => "singular"
  | .plural => "plural"
  | .unknown => "unknown"

/-- The gender in a word. -/
def Gender.label : Gender → String
  | .male => "male"
  | .female => "female"
  | .neutral => "neutral"
  | .unknown => "unknown"

/-- The animacy in a word. -/
def Animacy.label : Animacy → String
  | .animate => "animate"
  | .inanimate => "inanimate"
  | .unknown => "unknown"

/-- The type that a word names. -/
def MentionType.named? (name : String) : Option MentionType :=
  [.pronominal, .nominal, .proper, .list].find? fun type => type.label == name

/-- The number that a word names. -/
def Number.named? (name : String) : Option Number :=
  [.singular, .plural, .unknown].find? fun number => number.label == name

/-- The gender that a word names. -/
def Gender.named? (name : String) : Option Gender :=
  [.male, .female, .neutral, .unknown].find? fun gender => gender.label == name

end Discourse
