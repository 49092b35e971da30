import Discourse.Fault
import Discourse.Lexicon.Basic
/-!
# Written word lists

A word list has one entry per line.  Blank lines and lines that start with a hash sign hold none.
Entries are put into small letters, as the lexicon keeps them.  In a gender list the last word of
an entry is the gender of what stands before it, and a later entry for the same words wins.
-/

namespace Discourse

/-- Whether a trimmed line holds an entry. -/
def holdsEntry (line : String) : Bool :=
  match line.toList with
  | [] => false
  | c :: _ => c != '#'

/-- The entries of a text, each with the number of its line. -/
def listEntries (text : String) : List (String × Nat) :=
  ((Text.lines text).zipIdx 1).filterMap fun (line, number) =>
    let line := Text.trim line
    if holdsEntry line then some (line, number) else none

/-- The words of a word list. -/
def readWordList (text : String) : KeySet String :=
  KeySet.ofList ((listEntries text).map fun entry => Text.lower entry.1)

/-- The gender that a word in capital letters names. -/
def readGender? (name : String) : Option Gender :=
  [.male, .female, .neutral].find? fun gender => Text.upper gender.label == name

/-- The words and the gender of one entry of a gender list. -/
def readGenderEntry (entry : String × Nat) : Except ReadError (String × Gender) :=
  match Text.cutAtLastBlank? entry.1 with
  | none => .error (.invalid s!"Missing gender at line {entry.2}")
  | some (word, gender) =>
    let name := Text.upper gender
    match readGender? name with
    | none => .error (.invalid s!"Unknown gender {Text.quoted name} at line {entry.2}")
    | some gender => .ok (Text.lower (Text.trim word), gender)

/-- The genders of a gender list, or the first entry that is none. -/
def readGenderList (text : String) : Except ReadError (Table String Gender) :=
  ((listEntries text).mapM readGenderEntry).map Table.ofList

end Discourse
