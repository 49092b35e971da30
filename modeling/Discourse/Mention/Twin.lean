import Discourse.Document
/-!
# Twins

A predicted mention that is also a gold mention takes over the id of the gold mention, its twin.
The strict policy demands the same span, and of several gold mentions with one span the lowest id
goes first.  The relaxed policy lets every gold span be claimed once and then, for the predicted
mentions left over, the first gold mention left over with the same head.
-/

namespace Discourse

/-- How twins are found. -/
inductive TwinPolicy
  | strict
  | relaxed
deriving DecidableEq, Repr, Inhabited

/-- A predicted mention as the twin of a gold mention. -/
def Mention.claiming (m : Mention) (gold : MentionId) : Mention :=
  { m with id := gold, hasTwin := true }

/-- The smallest of a row of numbers. -/
def smallest? : List Nat → Option Nat
  | [] => none
  | n :: rest =>
    match smallest? rest with
    | some m => some (if m < n then m else n)
    | none => some n

/-- Twins by equal spans; `pool` holds the gold mentions not yet claimed. -/
def strictTwins (pool : List Mention) : List Mention → List Mention
  | [] => []
  | m :: rest =>
    match smallest? ((pool.filter fun g => g.span == m.span).map Mention.id) with
    | some id => m.claiming id :: strictTwins (pool.eraseP fun g => g.id == id) rest
    | none => m :: strictTwins pool rest

/-- The first gold mention of every span. -/
def firstOfSpan : List Mention → List Mention
  | [] => []
  | g :: rest => g :: (firstOfSpan rest).filter fun other => other.span != g.span

/-- Twins by equal spans, each gold span claimed once at most: the mentions, and the gold mentions
that nobody claimed. -/
def spanTwins (spans unclaimed : List Mention) : List Mention → List Mention × List Mention
  | [] => ([], unclaimed)
  | m :: rest =>
    match spans.find? fun g => g.span == m.span with
    | some g =>
      let (twins, left) := spanTwins (spans.filter fun other => other.span != m.span)
        (unclaimed.filter fun other => other.id != g.id) rest
      (m.claiming g.id :: twins, left)
    | none =>
      let (twins, left) := spanTwins spans unclaimed rest
      (m :: twins, left)

/-- Twins by equal heads for the mentions that have no twin yet. -/
def headTwins (unclaimed : List Mention) : List Mention → List Mention
  | [] => []
  | m :: rest =>
    if m.hasTwin then m :: headTwins unclaimed rest
    else match unclaimed.find? fun g => g.head == m.head with
      | some g =>
        m.claiming g.id :: headTwins (unclaimed.eraseP fun other => other.head == m.head) rest
      | none => m :: headTwins unclaimed rest

/-- Twins by span first and by head for the rest. -/
def relaxedTwins (gold predicted : List Mention) : List Mention :=
  let (mentions, unclaimed) := spanTwins (firstOfSpan gold) gold predicted
  headTwins unclaimed mentions

/-- The mentions of one sentence matched with its gold mentions. -/
def TwinPolicy.pair (policy : TwinPolicy) (gold predicted : List Mention) : List Mention :=
  match policy with
  | .strict => strictTwins gold predicted
  | .relaxed => relaxedTwins gold predicted

/-- The gold mentions of a sentence. -/
def Document.goldOf (doc : Document) (sentence : Nat) : List Mention :=
  ((doc.gold?.getD [])[sentence]?.getD []).filterMap doc.goldMentions.find?

/-- The rows of predicted mentions matched with the gold mentions of their sentences, and the
document with the claimed gold mentions marked. -/
def Document.findTwins (doc : Document) (policy : TwinPolicy) (rows : List (List Mention)) :
    Document × List (List Mention) :=
  if doc.gold?.isNone then (doc, rows)
  else
    let paired := rows.zipIdx.map fun (row, i) => policy.pair (doc.goldOf i) row
    let claimed := (paired.flatten.filter Mention.hasTwin).map Mention.id
    let goldMentions := claimed.foldl
      (fun t id => t.modify id fun g => { g with hasTwin := true }) doc.goldMentions
    ({ doc with goldMentions }, paired)

end Discourse
