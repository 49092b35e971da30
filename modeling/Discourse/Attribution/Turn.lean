import Discourse.Attribution.Scene
/-!
# Sieves that follow the turns

In an exchange of two people every other quotation has one speaker.  Three quotations are
successive turns if they start in consecutive paragraphs; loosely, in paragraphs one after the
other.  The remaining sieves here go by distance: the last mention in the paragraph of a quotation
that ends it, and the nearest mention of all.
-/

namespace Discourse

namespace Scene

variable {S : Type}

/-- The paragraph in which the quotation of an index starts. -/
def paragraphOfQuote? (sc : Scene S) (index : Nat) : Option Nat :=
  (sc.doc.quotes[index]?).bind sc.context.quoteParagraph?

/-- Whether three quotations are successive turns. -/
def alternates (sc : Scene S) (a b c : Nat) (strict : Bool) : Bool :=
  match sc.paragraphOfQuote? a, sc.paragraphOfQuote? b, sc.paragraphOfQuote? c with
  | some p, some q, some r => if strict then q == p + 1 && r == q + 1 else p < q && q < r
  | _, _, _ => false

/-- The mention of the quotation two turns back, or else of the one two turns ahead. -/
def conversational? (sc : Scene S) (index : Nat) (strict : Bool) : Option Resolution :=
  let mentionOf := fun (other : Nat) => (sc.doc.quotes[other]?).bind Quotation.resolution?
  (if 2 ≤ index ∧ sc.alternates (index - 2) (index - 1) index strict then mentionOf (index - 2)
    else none)
    <|> (if sc.alternates index (index + 1) (index + 2) strict then mentionOf (index + 2)
      else none)

/-- The speaker of one quotation, if another quotation has a different one or none. -/
def speakerUnless? (sc : Scene S) (other between : Nat) : Option String := do
  let quote ← sc.doc.quotes[other]?
  let speaker ← quote.speaker?
  let middle ← sc.doc.quotes[between]?
  if middle.speaker?.map QuoteSpeaker.name == some speaker.name then none else some speaker.name

/-- The speaker of the quotation two turns back, or else of the one two turns ahead, if somebody
else has the turn in between. -/
def loosePartner? (sc : Scene S) (index : Nat) : Option String :=
  (if 2 ≤ index ∧ sc.alternates (index - 2) (index - 1) index false then
      sc.speakerUnless? (index - 2) (index - 1)
    else none)
    <|> (if sc.alternates index (index + 1) (index + 2) false then
        sc.speakerUnless? (index + 2) (index + 1)
      else none)

/-- Whether nothing but punctuation follows a quotation in its paragraph. -/
def endsParagraph (sc : Scene S) (q : Quotation) (paragraph : Nat) : Bool :=
  let rest := List.range' q.tokenEnd (sc.doc.tokenCount - q.tokenEnd)
  (rest.takeWhile fun token => sc.context.paragraph? token == some paragraph).all
    sc.isPunctuationAt

/-- The last mention in narration before a quotation that ends its paragraph, from the same
paragraph. -/
def paragraphEnd? (sc : Scene S) (q : Quotation) : Option Resolution :=
  match sc.context.quoteParagraph? q with
  | none => none
  | some paragraph =>
    if sc.endsParagraph q paragraph then
      let before := sc.context.narration.filter fun m =>
        m.precedes q && sc.context.paragraph? m.tokenBegin == some paragraph
      before.getLast?.map CharacterMention.resolution
    else none

/-- The mentions in narration within the window around a quotation, with their distances. -/
def nearby (sc : Scene S) (q : Quotation) : List (Nat × CharacterMention) :=
  sc.context.narration.filterMap fun m =>
    match m.distanceTo? q with
    | some distance => if distance ≤ sc.settings.window then some (distance, m) else none
    | none => none

/-- The nearest mention in narration, an earlier one rather than a later one. -/
def closest? (sc : Scene S) (q : Quotation) : Option Resolution :=
  let nearer := fun (a b : Nat × CharacterMention) =>
    a.1 < b.1 || (a.1 == b.1 && a.2.precedes q && !b.2.precedes q)
  (best? nearer (sc.nearby q)).map fun found => found.2.resolution

end Scene

end Discourse
