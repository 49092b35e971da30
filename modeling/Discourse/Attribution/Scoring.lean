import Discourse.Attribution.Turn
/-!
# The supervised sieve

A candidate mention is described by features with values between 0 and 1 or little more, by which a
scorer rates it.  A scorer that was trained adds up its bias and the weighted features, in the order
of their names, and squeezes the sum between 0 and 1 by the logistic function.
-/

namespace Discourse

/-- A feature that is there or not. -/
def flag (b : Bool) : Float := if b then 1.0 else 0.0

/-- The weighted sum of features on top of the bias. -/
def Scorer.sum (scorer : Scorer) (features : FeatureVector) : Float :=
  features.foldl
    (fun total entry => total + ((scorer.weights.find? entry.1).getD 0.0) * entry.2) scorer.bias

/-- The score of a candidate with the given features. -/
def Scorer.score (scorer : Scorer) (features : FeatureVector) : Float :=
  1.0 / (1.0 + Float.exp (-(scorer.sum features)))

instance : QuoteScorer Scorer := ⟨Scorer.score⟩

namespace Scene

variable {S : Type}

/-- Whether a reporting verb in narration stands right beside a mention. -/
def isBesideReport (sc : Scene S) (m : CharacterMention) : Bool :=
  let before := 0 < m.tokenBegin && !sc.context.inQuote (m.tokenBegin - 1)
    && sc.isReportVerbAt (m.tokenBegin - 1)
  before || (!sc.context.inQuote m.tokenEnd && sc.isReportVerbAt m.tokenEnd)

/-- The share of a name's character among all names in the document. -/
def nameShare (sc : Scene S) (m : CharacterMention) : Float :=
  let frequencies := sc.context.frequencies
  let total := frequencies.values.foldr (· + ·) 0
  if m.kind == .name && 0 < total then
    match (sc.context.characterFor? m.text).bind fun c => frequencies.find? c.name with
    | some count => Float.ofNat count / Float.ofNat total
    | none => 0.0
  else 0.0

/-- The features of a mention as a candidate for a quotation, by name. -/
def features (sc : Scene S) (q : Quotation) (m : CharacterMention) : FeatureVector :=
  let distance := (m.distanceTo? q).getD sc.settings.window
  let paragraph? := sc.context.paragraph? m.tokenBegin
  [("animate", flag (m.kind == .animateNoun)),
    ("before", flag (m.precedes q)),
    ("distance", Float.ofNat distance / Float.ofNat (max sc.settings.window 1)),
    ("frequency", sc.nameShare m),
    ("name", flag (m.kind == .name)),
    ("pronoun", flag (m.kind == .pronoun)),
    ("quote_adjacent", flag (decide (distance ≤ 2))),
    ("report_verb_adjacent", flag (sc.isBesideReport m)),
    ("same_paragraph", flag (paragraph? == sc.context.quoteParagraph? q)),
    ("same_sentence", flag (q.sentenceBegin ≤ m.sentence && m.sentence ≤ q.sentenceEnd))]

/-- The nearby mention with the highest score, if that reaches the threshold; the first of several
such. -/
def bestCandidate? [QuoteScorer S] (sc : Scene S) (q : Quotation) : Option Resolution :=
  match sc.scorer? with
  | none => none
  | some scorer =>
    let scored := (sc.nearby q).map fun found =>
      (QuoteScorer.score scorer (sc.features q found.2), found.2)
    let good := scored.filter fun entry => decide (sc.settings.threshold ≤ entry.1)
    (best? (fun a b => decide (b.1 < a.1)) good).map fun entry => entry.2.resolution

end Scene

end Discourse
