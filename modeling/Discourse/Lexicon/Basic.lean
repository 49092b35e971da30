import Discourse.Lexicon.Words
import Discourse.Mention.Feature
import Discourse.Text.Blank
import Discourse.Text.Case
/-!
# The lexicon

A lexicon answers questions about single words.  It stores small letters only and puts every word
it is asked about into small letters first.
-/

namespace Discourse

/-- The replaceable word lists. -/
structure Lexicon where
  reportVerbs : KeySet String
  firstPerson : KeySet String
  familyWords : KeySet String
  /-- Names and nouns of known gender. -/
  genders : Table String Gender
  animateWords : KeySet String
deriving Inhabited

namespace Lexicon

/-- The default genders; a word in both lists counts as female. -/
def defaultGenders : Table String Gender :=
  Table.ofList <|
    defaultMaleNouns.map (fun noun => (noun, Gender.male))
      ++ defaultFemaleNouns.map (fun noun => (noun, Gender.female))

/-- The lexicon of the default lists; every noun of known gender is animate. -/
def default : Lexicon where
  reportVerbs := KeySet.ofList defaultReportVerbs
  firstPerson := KeySet.ofList defaultFirstPerson
  familyWords := KeySet.ofList defaultFamilyWords
  genders := defaultGenders
  animateWords := KeySet.ofList (defaultAnimateNouns ++ defaultGenders.keys)

/-- Whether a base form is a verb that reports speech. -/
def isReportVerb (lex : Lexicon) (baseForm : String) : Bool :=
  lex.reportVerbs.contains (Text.lower baseForm)

/-- Whether a word is a first-person pronoun. -/
def isFirstPerson (lex : Lexicon) (word : String) : Bool :=
  lex.firstPerson.contains (Text.lower word)

/-- Whether a word is a first-person pronoun of the singular. -/
def isFirstPersonSingular (lex : Lexicon) (word : String) : Bool :=
  let word := Text.lower word
  lex.firstPerson.contains word && singularFirstPerson.contains word

/-- Whether a word is a personal pronoun of any person. -/
def isPronoun (lex : Lexicon) (word : String) : Bool :=
  let word := Text.lower word
  lex.firstPerson.contains word || pluralPronouns.contains word || secondPerson.contains word
    || malePronouns.contains word || femalePronouns.contains word || neutralPronouns.contains word

/-- Whether a word is a third-person pronoun that can stand for a character. -/
def isCharacterPronoun (word : String) : Bool :=
  let word := Text.lower word
  malePronouns.contains word || femalePronouns.contains word

/-- Whether a word is a word for a relative. -/
def isFamilyWord (lex : Lexicon) (word : String) : Bool :=
  lex.familyWords.contains (Text.lower word)

/-- Whether a word is a word for somebody. -/
def isAnimateWord (lex : Lexicon) (word : String) : Bool :=
  lex.animateWords.contains (Text.lower word)

/-- The gender of a word: pronouns first, then the list. -/
def genderOf (lex : Lexicon) (word : String) : Gender :=
  let word := Text.lower word
  if malePronouns.contains word then .male
  else if femalePronouns.contains word then .female
  else if neutralPronouns.contains word then .neutral
  else (lex.genders.find? word).getD .unknown

/-- The gender of the first word of a name. -/
def genderOfName (lex : Lexicon) (name : String) : Gender :=
  match Text.words name with
  | [] => .unknown
  | first :: _ => lex.genderOf first

/-- The number of a word with its part of speech. -/
def numberOf (lex : Lexicon) (word pos : String) : Number :=
  if pluralPronouns.contains (Text.lower word) || pos == "NNS" || pos == "NNPS" then .plural
  else if Text.startsWith "NN" pos || lex.isPronoun word then .singular
  else .unknown

/-- The animacy of a word with its named-entity tag. -/
def animacyOf (lex : Lexicon) (word ner : String) : Animacy :=
  let small := Text.lower word
  if Text.startsWith "PER" ner || lex.animateWords.contains small || lex.isFirstPerson small
      || isCharacterPronoun small then .animate
  else if neutralPronouns.contains small || (ner != "O" && !ner.isEmpty) then .inanimate
  else .unknown

end Lexicon

end Discourse
