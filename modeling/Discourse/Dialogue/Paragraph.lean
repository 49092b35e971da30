import Discourse.Document
/-!
# Paragraphs

A token starts a new paragraph if it begins more than a given number of characters after the end
of the token before it.  Tokens without an offset are in no paragraph and do not count as the
token before.
-/

namespace Discourse

/-- Whether a token that begins at `start` opens a paragraph; `end?` is the end of the last token
with an offset. -/
def opensParagraph (gap : Nat) (end? : Option Nat) (start : Nat) : Except Stop Bool :=
  match end? with
  | none => .ok true
  | some previous => do return (← addOffset previous gap) < start

/-- A row of tokens numbered by paragraph, with the number of the last one; `last` is the number
reached so far and `end?` the end of the last token with an offset. -/
def paragraphMarks (gap : Nat) (last : Nat) (end? : Option Nat) :
    List Token → Except Stop (List Token × Nat)
  | [] => .ok ([], last)
  | t :: rest =>
    match t.beginChar? with
    | none => do
      let (marked, final) ← paragraphMarks gap last end? rest
      return ({ t with paragraph? := none } :: marked, final)
    | some start => do
      let current := if ← opensParagraph gap end? start then last + 1 else last
      let (marked, final) ← paragraphMarks gap current (some (t.endChar?.getD start)) rest
      return ({ t with paragraph? := some current } :: marked, final)

namespace Document

/-- The document with numbered tokens and the number of the last paragraph, and with the mentions
in the paragraphs of their heads. -/
def inParagraphs (doc : Document) (numbered : List Token × Nat) : Document :=
  let marked := (doc.withTokens numbered.1).markHeads fun head? m =>
    { m with paragraph? := head?.bind Token.paragraph? }
  { marked with paragraphs := numbered.2 }

/-- The document with its paragraphs numbered. -/
def setParagraphs (doc : Document) (gap : Nat) : Except Stop Document :=
  (paragraphMarks gap 0 none doc.tokens).map doc.inParagraphs

end Document

end Discourse
