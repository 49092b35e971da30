import Discourse.Attribution.Model
import Discourse.CommandLine.Disk
import Discourse.Lexicon.Listing
import Discourse.Source.AnnotatedJson
import Discourse.Source.Columns
/-!
# Reading files

Every kind of input as it is read from a disk.  An error names the file.  The files of the lexicon
each replace one list; they are looked for in a directory, and the place of each may also be given
by a variable.
-/

namespace Discourse.CommandLine

variable {m : Type → Type} [Monad m]

/-- The text of a file. -/
def readText (disk : Disk m) (path : String) : ExceptT ReadError m String := do
  match ← (disk.read? path : m (Option String)) with
  | some text => return text
  | none => throw ⟨[s!"Failed to read file: {Text.quotedPath path}"], .system⟩

/-- A result of reading as an action. -/
def settled {α : Type} (result : Except ReadError α) : ExceptT ReadError m α :=
  ExceptT.mk (pure result)

/-- An action whose error is described from one step further out. -/
def within {α : Type} (context : String) (action : ExceptT ReadError m α) :
    ExceptT ReadError m α :=
  ExceptT.mk do return describing context (← action.run)

/-- The document of an annotated text. -/
def readDocumentFile (disk : Disk m) (path : String) :
    ExceptT ReadError m (Document × RawMentions) := do
  let text ← readText disk path
  within s!"Invalid document: {Text.quotedPath path}" (settled (AnnotatedText.readDocument text))

/-- The documents of a column file. -/
def readColumnsFile (disk : Disk m) (path : String) :
    ExceptT ReadError m (List (Document × RawMentions)) := do
  let text ← readText disk path
  within s!"Invalid CoNLL file: {Text.quotedPath path}" (settled (readColumnFile text))

/-- The scorer of a model file. -/
def readScorerFile (disk : Disk m) (path : String) : ExceptT ReadError m Scorer := do
  match Scorer.read? (← readText disk path) with
  | some scorer => return scorer
  | none => throw ⟨[s!"Invalid scorer model: {Text.quotedPath path}"], .json⟩

/-- The words of a word list. -/
def readWordsFile (disk : Disk m) (path : String) : ExceptT ReadError m (KeySet String) := do
  return readWordList (← readText disk path)

/-- The genders of a gender list. -/
def readGendersFile (disk : Disk m) (path : String) :
    ExceptT ReadError m (Table String Gender) := do
  let text ← readText disk path
  within s!"Invalid gender list: {Text.quotedPath path}" (settled (readGenderList text))

/-! ## The lexicon -/

/-- The files that replace the lists of the lexicon. -/
structure LexiconFiles where
  reportVerbs? : Option String := none
  firstPerson? : Option String := none
  familyWords? : Option String := none
  genders? : Option String := none
  animateWords? : Option String := none
deriving DecidableEq, Repr, Inhabited

namespace LexiconFiles

/-- A file of a directory, if it is there. -/
def existing (disk : Disk m) (directory name : String) : m (Option String) := do
  let path := joinPath directory name
  return if ← disk.isFile path then some path else none

/-- The files of a directory. -/
def ofDirectory (disk : Disk m) (directory : String) : m LexiconFiles := do
  return {
    reportVerbs? := ← existing disk directory "report_verbs.txt"
    firstPerson? := ← existing disk directory "first_person.txt"
    familyWords? := ← existing disk directory "family_words.txt"
    genders? := ← existing disk directory "gender.txt"
    animateWords? := ← existing disk directory "animate.txt" }

/-- The files that variables of the environment name: those of a directory, and others in their
place. -/
def ofVariables (disk : Disk m) : m LexiconFiles := do
  let found ← match ← disk.setting? "DIALOGIST_RESOURCES" with
    | some directory => ofDirectory disk directory
    | none => pure {}
  return {
    reportVerbs? := (← disk.setting? "DIALOGIST_REPORT_VERBS") <|> found.reportVerbs?
    firstPerson? := (← disk.setting? "DIALOGIST_FIRST_PERSON") <|> found.firstPerson?
    familyWords? := (← disk.setting? "DIALOGIST_FAMILY_WORDS") <|> found.familyWords?
    genders? := (← disk.setting? "DIALOGIST_GENDER") <|> found.genders?
    animateWords? := (← disk.setting? "DIALOGIST_ANIMATE") <|> found.animateWords? }

/-- A list that is read from a file if there is one. -/
def replaced {α : Type} (list : α) (path? : Option String)
    (read : String → ExceptT ReadError m α) : ExceptT ReadError m α :=
  match path? with
  | some path => read path
  | none => pure list

/-- The default lexicon with the lists of the files in place of its own. -/
def load (disk : Disk m) (files : LexiconFiles) : ExceptT ReadError m Lexicon := do
  let words := readWordsFile disk
  let start := Lexicon.default
  let reportVerbs ← replaced start.reportVerbs files.reportVerbs? words
  let firstPerson ← replaced start.firstPerson files.firstPerson? words
  let familyWords ← replaced start.familyWords files.familyWords? words
  let genders ← replaced start.genders files.genders? (readGendersFile disk)
  let animateWords ← replaced start.animateWords files.animateWords? words
  return { reportVerbs, firstPerson, familyWords, genders, animateWords }

end LexiconFiles

end Discourse.CommandLine
