import Discourse.Fault
import Discourse.Table
import Discourse.Text.Blank
/-!
# Sieves and their settings

Quotations are attributed by two chains of sieves, the first from a quotation to the mention of
its speaker, the second on to the speaker.  A sieve has a key, by which it is chosen and by which
its results are marked.
-/

namespace Discourse

/-- The sieves that choose a mention for a quotation. -/
inductive QuoteSieve
  /-- A first-person pronoun in the quotation whose speaker is known. -/
  | selfReference
  /-- A mention and a reporting verb right beside the quotation. -/
  | trigram
  /-- The subject of a reporting verb in the quotation's sentences. -/
  | dependency
  /-- The only character named in the quotation's sentences. -/
  | oneName
  /-- Somebody addressed in the quotation before or after. -/
  | vocative
  /-- The last mention before a quotation that ends its paragraph. -/
  | paragraphEnd
  /-- The mention that a trained scorer likes best. -/
  | supervised
  /-- The mention of the quotation two turns away, in consecutive paragraphs. -/
  | conversational
  /-- The mention of the quotation two turns away, in any later paragraphs. -/
  | looseConversational
  /-- The nearest mention. -/
  | closest
deriving DecidableEq, Repr, Inhabited

/-- The sieves that choose a speaker for a quotation with or without a mention. -/
inductive SpeakerSieve
  /-- The character of the mention. -/
  | deterministic
  /-- The speaker of the quotation two turns away. -/
  | looseConversational
  /-- The best of the characters named nearby. -/
  | topSpeaker
  /-- The character named most often. -/
  | majority
deriving DecidableEq, Repr, Inhabited

namespace QuoteSieve

/-- All sieves, in their natural order. -/
def all : List QuoteSieve :=
  [.selfReference, .trigram, .dependency, .oneName, .vocative, .paragraphEnd, .supervised,
    .conversational, .looseConversational, .closest]

/-- The key of a sieve. -/
def key : QuoteSieve → String
  | .selfReference => "self"
  | .trigram => "tri"
  | .dependency => "dep"
  | .oneName => "onename"
  | .vocative => "voc"
  | .paragraphEnd => "paraend"
  | .supervised => "sup"
  | .conversational => "conv"
  | .looseConversational => "loose"
  | .closest => "closest"

end QuoteSieve

namespace SpeakerSieve

/-- All sieves, in their natural order. -/
def all : List SpeakerSieve := [.deterministic, .looseConversational, .topSpeaker, .majority]

/-- The key of a sieve. -/
def key : SpeakerSieve → String
  | .deterministic => "det"
  | .looseConversational => "loose"
  | .topSpeaker => "top"
  | .majority => "maj"

end SpeakerSieve

/-- How quotations are attributed. -/
structure AttributionSettings where
  quoteSieves : List QuoteSieve
  speakerSieves : List SpeakerSieve
  /-- The least score with which the supervised sieve is content. -/
  threshold : Float
  /-- How far from a quotation, in tokens, its speaker may be mentioned. -/
  window : Nat
deriving Inhabited

namespace AttributionSettings

/-- The sieves in their natural order, without the one that takes the nearest mention. -/
def default : AttributionSettings where
  quoteSieves := QuoteSieve.all.filter (· != .closest)
  speakerSieves := SpeakerSieve.all
  threshold := 0.5
  window := 60

/-- The keys of the default sieves for mentions, as a list. -/
def defaultQuoteKeys : String := ",".intercalate (default.quoteSieves.map QuoteSieve.key)

/-- The keys of the default sieves for speakers, as a list. -/
def defaultSpeakerKeys : String := ",".intercalate (default.speakerSieves.map SpeakerSieve.key)

/-- Whether the settings are the default ones. -/
def isDefault (settings : AttributionSettings) : Bool :=
  settings.quoteSieves == default.quoteSieves && settings.speakerSieves == default.speakerSieves
    && settings.threshold == default.threshold && settings.window == default.window

end AttributionSettings

/-- The elements of `all` that a list of keys, separated by commas, names.  Blanks around a key
do not count, and an empty key names nothing. -/
def sievesOfKeys {α : Type} (all : List α) (key : α → String) (keys : String) :
    Except Fault (List α) :=
  (((Text.splitOn ',' keys).map Text.trim).filter (!String.isEmpty ·)).mapM fun name =>
    match all.find? fun sieve => key sieve == name with
    | some sieve => .ok sieve
    | none => .error (.unknownSieve name)

/-- The default settings with the sieves that two lists of keys name. -/
def AttributionSettings.ofLists (quoteKeys speakerKeys : String) :
    Except Fault AttributionSettings := do
  let quoteSieves ← sievesOfKeys QuoteSieve.all QuoteSieve.key quoteKeys
  let speakerSieves ← sievesOfKeys SpeakerSieve.all SpeakerSieve.key speakerKeys
  return { AttributionSettings.default with quoteSieves, speakerSieves }

end Discourse
