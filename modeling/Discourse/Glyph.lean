/-!
# Quotation glyphs

A token that opens or closes a quotation.  The neutral glyph does either, as its place demands.
-/

namespace Discourse

/-- A glyph that only opens a quotation. -/
def isOpeningGlyph (word : String) : Bool :=
  word == "``" || word == "\u201c" || word == "\u2018\u2018"

/-- A glyph that only closes a quotation. -/
def isClosingGlyph (word : String) : Bool :=
  word == "''" || word == "\u201d" || word == "\u2019\u2019"

/-- The glyph that opens outside a quotation and closes inside one. -/
def isNeutralGlyph (word : String) : Bool := word == "\""

/-- Any quotation glyph. -/
def isGlyph (word : String) : Bool :=
  isOpeningGlyph word || isClosingGlyph word || isNeutralGlyph word

end Discourse
