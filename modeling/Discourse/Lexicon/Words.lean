import Discourse.Table
/-!
# Word lists

The built-in lists, all in small letters.  The first group consists of the pronouns, which are
fixed; the second group consists of the defaults for the lists that a user may replace.
-/

namespace Discourse

/-- First-person pronouns of the singular. -/
def singularFirstPerson : List String := ["i", "me", "my", "mine", "myself"]

/-- Pronouns for several people or things. -/
def pluralPronouns : List String :=
  ["we", "us", "our", "ours", "ourselves", "they", "them", "their", "theirs", "themselves"]

/-- Second-person pronouns. -/
def secondPerson : List String := ["you", "your", "yours", "yourself", "yourselves"]

/-- Pronouns for a man. -/
def malePronouns : List String := ["he", "him", "his", "himself"]

/-- Pronouns for a woman. -/
def femalePronouns : List String := ["she", "her", "hers", "herself"]

/-- Pronouns for a thing. -/
def neutralPronouns : List String := ["it", "its", "itself"]

/-- Verbs that report speech. -/
def defaultReportVerbs : List String :=
  ["accuse", "acknowledge", "add", "admit", "advise", "agree", "announce", "answer", "argue",
    "ask", "assert", "assure", "beg", "boast", "call", "caution", "claim", "comment", "complain",
    "confess", "confirm", "continue", "cry", "declare", "demand", "deny", "exclaim", "explain",
    "groan", "growl", "grumble", "inform", "inquire", "insist", "interrupt", "joke", "laugh",
    "mention", "moan", "murmur", "mutter", "note", "observe", "order", "plead", "promise",
    "propose", "protest", "reassure", "recall", "reckon", "remark", "remind", "repeat", "reply",
    "report", "respond", "retort", "say", "scream", "shout", "shriek", "sigh", "snap", "sneer",
    "sob", "speak", "state", "stammer", "stutter", "suggest", "tell", "testify", "think", "urge",
    "wail", "warn", "whimper", "whisper", "wonder", "write", "yell"]

/-- First-person pronouns of both numbers. -/
def defaultFirstPerson : List String :=
  ["i", "me", "my", "mine", "myself", "we", "us", "our", "ours", "ourselves"]

/-- Words for relatives. -/
def defaultFamilyWords : List String :=
  ["aunt", "brother", "cousin", "dad", "daddy", "daughter", "father", "grandfather",
    "grandmother", "grandma", "grandpa", "husband", "ma", "mama", "mom", "mother", "mum",
    "nephew", "niece", "pa", "papa", "sister", "son", "uncle", "wife"]

/-- Nouns and titles for a man. -/
def defaultMaleNouns : List String :=
  ["boy", "brother", "dad", "daddy", "father", "gentleman", "grandfather", "grandpa", "husband",
    "king", "lord", "man", "mr.", "mr", "nephew", "pa", "papa", "prince", "sir", "son", "uncle"]

/-- Nouns and titles for a woman. -/
def defaultFemaleNouns : List String :=
  ["aunt", "daughter", "girl", "grandma", "grandmother", "lady", "ma", "madam", "mama", "miss",
    "mom", "mother", "mrs.", "mrs", "ms.", "mum", "niece", "princess", "queen", "sister", "wife",
    "woman"]

/-- Nouns for people that say nothing of gender. -/
def defaultAnimateNouns : List String :=
  ["captain", "child", "doctor", "driver", "friend", "guard", "judge", "maid", "nurse",
    "officer", "person", "people", "priest", "servant", "soldier", "stranger", "student",
    "tailor", "waiter", "worker"]

end Discourse
