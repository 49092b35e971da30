import Discourse.Document
import Discourse.Glyph
/-!
# Finding quotations

Outside a quotation an opening or neutral glyph opens one, and the next closing or neutral glyph
closes it.  A quotation that is never closed is none.
-/

namespace Discourse

/-- Token ranges from opening to closing glyph, from token `i` on; `open?` is the opening glyph of
the quotation being read. -/
def quoteRanges (open? : Option Nat) (i : Nat) : List Token → List (Nat × Nat)
  | [] => []
  | t :: rest =>
    match open? with
    | none =>
      if isOpeningGlyph t.word || isNeutralGlyph t.word then quoteRanges (some i) (i + 1) rest
      else quoteRanges none (i + 1) rest
    | some start =>
      if isClosingGlyph t.word || isNeutralGlyph t.word then
        (start, i + 1) :: quoteRanges none (i + 1) rest
      else quoteRanges (some start) (i + 1) rest

namespace Document

/-- The quotation over a range of tokens that is not empty. -/
def quotationOf (doc : Document) (index start stop : Nat) : Quotation :=
  let first := (doc.locate? start).getD (0, 0)
  let last := (doc.locate? (stop - 1)).getD first
  { index
    text := doc.textBetween start stop
    beginChar? := (doc.token? start).bind Token.beginChar?
    endChar? := (doc.token? (stop - 1)).bind Token.endChar?
    tokenBegin := start
    tokenEnd := stop
    sentenceBegin := first.1
    sentenceEnd := last.1 }

/-- The quotations that the glyphs mark, in order. -/
def detectQuotes (doc : Document) : List Quotation :=
  (quoteRanges none 0 doc.tokens).zipIdx.map fun (range, index) =>
    doc.quotationOf index range.1 range.2

end Document

/-- Whether a token is a glyph or has nothing but ASCII punctuation. -/
def isPunctuation (t : Token) : Bool :=
  isGlyph t.word || t.word.toList.all fun c =>
    let n := c.toNat
    (33 ≤ n && n ≤ 47) || (58 ≤ n && n ≤ 64) || (91 ≤ n && n ≤ 96) || (123 ≤ n && n ≤ 126)

end Discourse
