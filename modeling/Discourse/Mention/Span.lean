import Discourse.Mention.Feature
/-!
# Mention spans

What is given for a mention before it gets its id: the span, and whatever else the source knew.
-/

namespace Discourse

/-- A span of tokens of a sentence, to become a mention. -/
structure MentionSpan where
  start : Nat
  /-- One past the last token. -/
  stop : Nat
  /-- The head token; found from the sentence where it is not given. -/
  head? : Option Nat := none
  type? : Option MentionType := none
  goldCluster? : Option Nat := none
  /-- The antecedent of a gold mention, counted among the gold mentions of the document. -/
  antecedent? : Option MentionId := none
deriving DecidableEq, Repr, Inhabited

/-- The spans given for a document, sentence by sentence. -/
structure RawMentions where
  predicted : List (List MentionSpan)
  gold? : Option (List (List MentionSpan))
deriving DecidableEq, Repr, Inhabited

end Discourse
