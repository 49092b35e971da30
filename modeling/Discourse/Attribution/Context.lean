import Discourse.Attribution.Quote
import Discourse.Lexicon.Basic
/-!
# The context of attribution

What the sieves share: the characters, which are the people that entity mentions name; the
mentions that name or stand for a character; and for every token its quotation and its paragraph.
Names, pronouns and nouns for people are character mentions, in the order of their tokens.
-/

namespace Discourse

/-- A person that can speak. -/
structure Character where
  /-- The name with single spaces. -/
  name : String
  gender : Gender
deriving DecidableEq, Repr, Inhabited

/-- A span that names or stands for a character. -/
structure CharacterMention where
  text : String
  /-- The first token, counted within the document. -/
  tokenBegin : Nat
  /-- One past the last token. -/
  tokenEnd : Nat
  sentence : Nat
  kind : CharacterKind
  gender : Gender
deriving DecidableEq, Repr, Inhabited

namespace CharacterMention

/-- The mention as the answer to who speaks. -/
def resolution (m : CharacterMention) : Resolution := ⟨m.text, m.tokenBegin, m.tokenEnd, m.kind⟩

/-- Whether the mention ends before a quotation starts. -/
def precedes (m : CharacterMention) (q : Quotation) : Bool := m.tokenEnd ≤ q.tokenBegin

/-- The number of tokens between the mention and a quotation; none if they overlap. -/
def distanceTo? (m : CharacterMention) (q : Quotation) : Option Nat :=
  if m.tokenEnd ≤ q.tokenBegin then some (q.tokenBegin - m.tokenEnd)
  else if q.tokenEnd ≤ m.tokenBegin then some (m.tokenBegin - q.tokenEnd)
  else none

/-- Whether the mention covers a token. -/
def covers (m : CharacterMention) (token : Nat) : Bool :=
  m.tokenBegin ≤ token && token < m.tokenEnd

/-- Whether the mention comes before another or has the same range. -/
def isNotAfter (m other : CharacterMention) : Bool :=
  m.tokenBegin < other.tokenBegin
    || (m.tokenBegin == other.tokenBegin && m.tokenEnd ≤ other.tokenEnd)

end CharacterMention

/-- What the sieves share for one document. -/
structure Context where
  characters : List Character := []
  /-- The character mentions in document order. -/
  mentions : List CharacterMention := []
  /-- The quotation of every token. -/
  quoteOfToken : List (Option Nat) := []
  /-- The paragraph of every token; without offsets the sentence counts as one. -/
  paragraphOfToken : List Nat := []
deriving DecidableEq, Repr, Inhabited

/-- The characters so far with the one that an entity mention names, if it is new. -/
def addCharacter (lex : Lexicon) (characters : List Character) (e : EntityMention) :
    List Character :=
  let name := Text.squeeze e.text
  if characters.any fun c => c.name == name then characters
  else characters ++ [⟨name, lex.genderOfName name⟩]

/-- The people that entity mentions name, in the order in which they are first named. -/
def charactersOf (lex : Lexicon) (entities : List EntityMention) : List Character :=
  (entities.filter EntityMention.isPerson).foldl (addCharacter lex) []

/-- The character mention of an entity mention. -/
def nameMention (lex : Lexicon) (e : EntityMention) : CharacterMention :=
  ⟨Text.squeeze e.text, e.tokenBegin, e.tokenEnd, e.sentence, .name, lex.genderOfName e.text⟩

/-- How a token by itself stands for a character. -/
def Token.characterKind? (lex : Lexicon) (t : Token) : Option CharacterKind :=
  if Text.startsWith "PRP" t.pos
      && (Lexicon.isCharacterPronoun t.word || lex.isFirstPersonSingular t.word) then some .pronoun
  else if Text.startsWith "NN" t.pos && !Text.startsWith "NNP" t.pos
      && lex.isAnimateWord t.word then some .animateNoun
  else none

/-- The character mentions so far with the one that a token makes, if none covers it yet. -/
def addTokenMention (lex : Lexicon) (mentions : List CharacterMention)
    (entry : (Token × Nat) × Nat) : List CharacterMention :=
  let ((t, sentence), token) := entry
  if mentions.any fun m => m.covers token then mentions
  else match t.characterKind? lex with
    | none => mentions
    | some kind =>
      mentions ++ [⟨t.word, token, token + 1, sentence, kind, lex.genderOf t.word⟩]

namespace Document

/-- All tokens with their sentences. -/
def tokensWithSentences (doc : Document) : List (Token × Nat) :=
  doc.sentences.zipIdx.flatMap fun (s, i) => s.tokens.map fun t => (t, i)

/-- The character mentions of a document, in the order of their tokens. -/
def characterMentions (doc : Document) (lex : Lexicon) : List CharacterMention :=
  let names := (doc.entities.filter EntityMention.isPerson).map (nameMention lex)
  let all := doc.tokensWithSentences.zipIdx.foldl (addTokenMention lex) names
  all.mergeSort CharacterMention.isNotAfter

/-- The last quotation that contains a token. -/
def quoteAt? (quotes : List Quotation) (token : Nat) : Option Nat :=
  ((quotes.zipIdx.filter fun (q, _) => q.containsToken token).map Prod.snd).getLast?

/-- The context of a document. -/
def context (doc : Document) (lex : Lexicon) : Context where
  characters := charactersOf lex doc.entities
  mentions := doc.characterMentions lex
  quoteOfToken := (List.range doc.tokenCount).map (quoteAt? doc.quotes)
  paragraphOfToken := doc.tokensWithSentences.map fun (t, i) => t.paragraph?.getD (i + 1)

end Document

namespace Context

/-- Whether a token lies in a quotation. -/
def inQuote (ctx : Context) (token : Nat) : Bool := (ctx.quoteOfToken[token]?).join.isSome

/-- The paragraph of a token. -/
def paragraph? (ctx : Context) (token : Nat) : Option Nat := ctx.paragraphOfToken[token]?

/-- The paragraph in which a quotation starts. -/
def quoteParagraph? (ctx : Context) (q : Quotation) : Option Nat := ctx.paragraph? q.tokenBegin

/-- The character mentions outside every quotation. -/
def narration (ctx : Context) : List CharacterMention :=
  ctx.mentions.filter fun m => !ctx.inQuote m.tokenBegin

/-- The character mentions inside a quotation. -/
def within (ctx : Context) (q : Quotation) : List CharacterMention :=
  ctx.mentions.filter fun m => q.tokenBegin ≤ m.tokenBegin && m.tokenEnd ≤ q.tokenEnd

/-- The first mention that starts at a token. -/
def startingAt? (ctx : Context) (token : Nat) : Option CharacterMention :=
  ctx.mentions.find? fun m => m.tokenBegin == token

/-- The first mention that ends just before a token. -/
def endingAt? (ctx : Context) (token : Nat) : Option CharacterMention :=
  ctx.mentions.find? fun m => m.tokenEnd == token

/-- The first mention that covers a token. -/
def covering? (ctx : Context) (token : Nat) : Option CharacterMention :=
  ctx.mentions.find? fun m => m.covers token

/-- Whether two texts share a word, the case of ASCII letters aside. -/
def sharesWord (name text : String) : Bool :=
  (Text.words name).any fun a => (Text.words text).any fun b => Text.equalFold b a

/-- The character that a text names: one with exactly this name, or else one that shares a word
with it. -/
def characterFor? (ctx : Context) (text : String) : Option Character :=
  let text := Text.squeeze text
  ctx.characters.find? (fun c => Text.equalFold c.name text)
    <|> ctx.characters.find? (fun c => sharesWord c.name text)

/-- How often each character is named in the whole document. -/
def frequencies (ctx : Context) : Table String Nat :=
  let named := (ctx.mentions.filter fun m => m.kind == .name).filterMap fun m =>
    ctx.characterFor? m.text
  named.foldl (fun t c => t.insert c.name ((t.find? c.name).getD 0 + 1)) {}

end Context

end Discourse
