import Discourse.Dependency
import Discourse.Text.Blank
import Discourse.Text.Case
import Discourse.Tree.Node
/-!
# Tokens and sentences

A token carries what tokenizer and taggers found and, once they are known, the marks of the
discourse: its utterance, its speaker, its paragraph and the entity mention over it.
-/

namespace Discourse

/-- A token with its tags and marks. -/
structure Token where
  word : String
  /-- The form under which a lexicon lists the word. -/
  baseForm : String
  pos : String
  /-- The named-entity tag; O for none. -/
  ner : String := "O"
  beginChar? : Option Nat := none
  /-- One past the last character. -/
  endChar? : Option Nat := none
  utterance? : Option Nat := none
  speaker? : Option String := none
  /-- The paragraph, counted from one. -/
  paragraph? : Option Nat := none
  /-- The entity mention that covers the token, by its place in the document's list. -/
  entity? : Option Nat := none
deriving DecidableEq, Repr, Inhabited

namespace Token

/-- A bare token, whose base form is the word in small letters. -/
def ofWord (word pos : String) : Token :=
  { word, baseForm := Text.lower word, pos }

/-- The utterance, 0 while it is not known. -/
def utterance (t : Token) : Nat := t.utterance?.getD 0

/-- Whether the token is tagged as a verb. -/
def isVerb (t : Token) : Bool := Text.startsWith "V" t.pos

/-- Whether the token is tagged as part of a person's name. -/
def isPerson (t : Token) : Bool := Text.startsWith "PER" t.ner

end Token

/-- A sentence with its analyses. -/
structure Sentence where
  tokens : List Token
  parse? : Option ParseTree := none
  basic? : Option DependencyGraph := none
  enhanced? : Option DependencyGraph := none
  /-- One chunk tag per token, or none at all. -/
  chunkTags : List String := []
deriving DecidableEq, Repr, Inhabited

namespace Sentence

/-- The number of tokens. -/
def length (s : Sentence) : Nat := s.tokens.length

/-- The enhanced dependencies if given, else the basic ones. -/
def dependencies? (s : Sentence) : Option DependencyGraph := s.enhanced? <|> s.basic?

/-- The words from `start` up to `stop`, joined by spaces. -/
def spanText (s : Sentence) (start stop : Nat) : String :=
  " ".intercalate (((s.tokens.take stop).drop start).map Token.word)

end Sentence

end Discourse
