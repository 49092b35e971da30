/-!
# Quotations and entity mentions

A quotation is a range of tokens, its glyphs included, with what was found out about it: the
mention that names its speaker, the speaker, and the canonical mention of that speaker.  Each of
the three is either there with all its parts or not there at all.
-/

namespace Discourse

/-- How a mention stands for a character. -/
inductive CharacterKind
  | name
  | pronoun
  | animateNoun
deriving DecidableEq, Repr, Inhabited

/-- The kind in words. -/
def CharacterKind.label : CharacterKind → String
  | .name => "name"
  | .pronoun => "pronoun"
  | .animateNoun => "animate noun"

/-- The mention chosen for a quotation. -/
structure Resolution where
  text : String
  /-- The first token, counted within the document. -/
  tokenBegin : Nat
  /-- One past the last token. -/
  tokenEnd : Nat
  kind : CharacterKind
deriving DecidableEq, Repr, Inhabited

/-- The mention of a quotation and the sieve that chose it. -/
structure QuoteMention extends Resolution where
  sieve : String
deriving DecidableEq, Repr, Inhabited

/-- The speaker of a quotation and the sieve that chose it. -/
structure QuoteSpeaker where
  name : String
  sieve : String
deriving DecidableEq, Repr, Inhabited

/-- A text with its range of tokens. -/
structure TokenSpan where
  text : String
  tokenBegin : Nat
  tokenEnd : Nat
deriving DecidableEq, Repr, Inhabited

/-- A quoted range of tokens and its attribution. -/
structure Quotation where
  index : Nat
  text : String
  beginChar? : Option Nat
  endChar? : Option Nat
  /-- The first token, which is the opening glyph, counted within the document. -/
  tokenBegin : Nat
  /-- One past the last token. -/
  tokenEnd : Nat
  sentenceBegin : Nat
  /-- The sentence of the last token. -/
  sentenceEnd : Nat
  mention? : Option QuoteMention := none
  speaker? : Option QuoteSpeaker := none
  canonical? : Option TokenSpan := none
deriving DecidableEq, Repr, Inhabited

namespace Quotation

/-- The quotation with its mention chosen. -/
def withMention (q : Quotation) (found : Resolution) (sieve : String) : Quotation :=
  { q with mention? := some { toResolution := found, sieve } }

/-- The quotation with its speaker chosen. -/
def withSpeaker (q : Quotation) (name sieve : String) : Quotation :=
  { q with speaker? := some { name, sieve } }

/-- The quotation with its canonical mention set. -/
def withCanonical (q : Quotation) (span : TokenSpan) : Quotation :=
  { q with canonical? := some span }

/-- Whether a token lies in the quotation. -/
def containsToken (q : Quotation) (token : Nat) : Bool :=
  q.tokenBegin ≤ token && token < q.tokenEnd

/-- The mention as it was chosen. -/
def resolution? (q : Quotation) : Option Resolution := q.mention?.map QuoteMention.toResolution

end Quotation

/-- A run of tokens that names an entity. -/
structure EntityMention where
  text : String
  sentence : Nat
  /-- The first token, counted within the document. -/
  tokenBegin : Nat
  /-- One past the last token. -/
  tokenEnd : Nat
  entityType : String
  /-- The fullest mention of the same entity, by its place in the list. -/
  canonical? : Option Nat
deriving DecidableEq, Repr, Inhabited

/-- Whether the entity is a person. -/
def EntityMention.isPerson (e : EntityMention) : Bool :=
  match e.entityType.toList with
  | 'P' :: 'E' :: 'R' :: _ => true
  | _ => false

end Discourse
