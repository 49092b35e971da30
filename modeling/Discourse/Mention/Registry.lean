import Discourse.Mention.Build
import Discourse.Mention.Twin
/-!
# The mentions of a document

Gold spans become gold mentions, numbered first, and predicted spans become predicted mentions,
numbered after them, both sentence by sentence.  Predicted mentions that have a twin take over its
id.  All predicted mentions are then registered by id, by position and by head, and finally sorted
within their sentences.
-/

namespace Discourse

namespace Document

/-- Gold mentions that name no antecedents get them from their clusters: the mention of the same
cluster that comes before.  Nothing happens if some antecedent is given. -/
def deriveAntecedents (doc : Document) : Document :=
  if doc.goldMentions.values.any fun g => g.antecedent?.isSome then doc
  else
    let step := fun (state : Table MentionId Mention × Table Nat MentionId) (g : Mention) =>
      match g.goldCluster? with
      | none => state
      | some cluster =>
        (state.1.modify g.id fun m => { m with antecedent? := state.2.find? cluster },
          state.2.insert cluster g.id)
    { doc with goldMentions := (doc.goldMentions.values.foldl step (doc.goldMentions, {})).1 }

/-- The document with its gold mentions built, the next free id, and the reason to stop. -/
def takeGold (doc : Document) (lex : Lexicon) (gold? : Option (List (List MentionSpan))) :
    Document × MentionId × Option Stop :=
  match gold? with
  | none => (doc, 0, none)
  | some rows =>
    let (built, stop?) := buildMentions lex 0 (spansOf doc.sentences rows)
    let kept := { doc with
      goldMentions := built.foldl (fun t m => t.insert m.id m) doc.goldMentions }
    match stop? with
    | some stop => (kept, built.length, some stop)
    | none =>
      let ids := (rowsOf doc.sentences.length built).map fun row => row.map Mention.id
      (deriveAntecedents { kept with gold? := some ids }, built.length, none)

/-- The noun phrase of the parse around the head of a mention, where there is a parse. -/
def subtreeOf (doc : Document) (m : Mention) : Except Stop (Option Nat) :=
  match (doc.sentences[m.sentence]?).bind Sentence.parse? with
  | none => .ok none
  | some tree =>
    match tree.leafId? m.head with
    | some leaf => .ok (some (tree.nounPhraseFor leaf))
    | none => .error (.fault (.missingHeadLeaf m.id m.head))

/-- The document with one predicted mention registered at a place of its sentence. -/
def register (doc : Document) (place : Nat) (m : Mention) : Document :=
  addMention
    { doc with
      positions := doc.positions.insert m.id (m.sentence, place)
      headed := doc.headed.insert (m.sentence, m.head) m.id } m

/-- The document with mentions and their places registered, up to the first fault. -/
def registerAll (doc : Document) : List (Mention × Nat) → Document × Option Stop
  | [] => (doc, none)
  | (m, place) :: rest =>
    match doc.subtreeOf m with
    | .error stop => (doc, some stop)
    | .ok subtree? => (doc.register place { m with subtree? }).registerAll rest

/-- The document with its predicted mentions replaced by the rows given. -/
def fillMentions (doc : Document) (rows : List (List Mention)) : Document × Option Stop :=
  let cleared := { doc with predicted := doc.sentences.map fun _ => [] }
  match cleared.registerAll (rows.flatMap List.zipIdx) with
  | (filled, some stop) => (filled, some stop)
  | (filled, none) => ({ filled with allPositions := filled.positions }, none)

/-- The document with its mentions, and the number of predicted mentions that have a twin.  After
a fault the document has what came before it. -/
def initializeMentions (doc : Document) (lex : Lexicon) (policy : TwinPolicy)
    (raw : RawMentions) : Document × Except Stop Nat :=
  match doc.takeGold lex raw.gold? with
  | (doc, _, some stop) => (doc, .error stop)
  | (doc, next, none) =>
    match buildMentions lex next (spansOf doc.sentences raw.predicted) with
    | (_, some stop) => (doc, .error stop)
    | (built, none) =>
      let (doc, rows) := doc.findTwins policy (rowsOf doc.sentences.length built)
      match doc.fillMentions rows with
      | (doc, some stop) => (doc, .error stop)
      | (doc, none) => (doc, .ok (rows.flatten.countP Mention.hasTwin))

/-- Whether one id may stand before another in the sorted list of a sentence. -/
def inOrder (doc : Document) (a b : MentionId) : Bool :=
  match doc.mention? a, doc.mention? b with
  | some x, some y => x.documentOrder y != .gt
  | _, _ => a ≤ b

/-- The document with the list of every sentence in document order. -/
def reorderMentions (doc : Document) : Document :=
  let predicted := doc.predicted.map fun ids => ids.mergeSort doc.inOrder
  let places := predicted.zipIdx.flatMap fun (ids, i) => ids.zipIdx.map fun (id, j) => (id, (i, j))
  let positions := places.foldl (fun t (id, position) => t.insert id position) doc.positions
  { doc with predicted, positions, allPositions := positions }

end Document

end Discourse
