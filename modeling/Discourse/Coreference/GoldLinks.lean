import Discourse.Document
import Discourse.Fault
/-!
# Gold links

Gold data name for each mention one antecedent at most, possibly one that comes later in the text.
The links that follow are all pairs of a mention and an earlier one that the antecedents connect.
They are found mention by mention in the order of the lists:

* while the antecedent comes after the mention, the chain between them is turned round;
* a mention between the two that is already linked to the antecedent is linked too;
* so are the antecedent itself and all that it is linked to.

A chain that runs into itself, or names a mention that is not listed, is a fault, and then nothing
has changed.
-/

namespace Discourse

/-- Whether one position comes before another. -/
def isEarlier (p q : Position) : Bool := p.1 < q.1 || (p.1 == q.1 && p.2 < q.2)

/-- The listed gold mentions with their positions; for one listed twice the last counts. -/
structure GoldOrder where
  /-- All listed mentions with their positions, in order. -/
  listed : List (MentionId × Position)
  positions : Table MentionId Position
deriving Repr

/-- The ids of a list of rows with the row and the place of each. -/
def withPositions (rows : List (List MentionId)) : List (MentionId × Position) :=
  rows.zipIdx.flatMap fun (row, i) => row.zipIdx.map fun (id, j) => (id, (i, j))

/-- The order of a list of rows of gold mentions. -/
def GoldOrder.ofRows (rows : List (List MentionId)) : GoldOrder :=
  ⟨withPositions rows, Table.ofList (withPositions rows)⟩

/-- The state of the search: the antecedents as turned so far, and the links found. -/
structure LinkState where
  antecedents : Table MentionId (Option MentionId)
  /-- For each mention the mentions it is linked to, the first found first. -/
  linked : Table MentionId (List MentionId) := {}
  /-- All links, the last found first. -/
  found : List (MentionId × MentionId) := []
deriving Repr

namespace LinkState

/-- The antecedent of a mention at present. -/
def antecedent? (st : LinkState) (id : MentionId) : Option MentionId :=
  (st.antecedents.find? id).join

/-- What a mention is linked to so far. -/
def linksOf (st : LinkState) (id : MentionId) : List MentionId := (st.linked.find? id).getD []

/-- The state with a link, unless it is known. -/
def addLink (st : LinkState) (id target : MentionId) : LinkState :=
  if (st.linksOf id).contains target then st
  else
    { st with
      linked := st.linked.insert id (st.linksOf id ++ [target])
      found := (id, target) :: st.found }

/-- The state with the link from a mention to its antecedent turned round: the mention takes over
what the antecedent refers to. -/
def turn (st : LinkState) (id target : MentionId) : LinkState :=
  { st with
    antecedents := (st.antecedents.insert id (st.antecedent? target)).insert target (some id) }

/-- A link from a mention to another one that is linked to the same target. -/
def addMissed (id target : MentionId) (st : LinkState) (other : MentionId) : LinkState :=
  if (st.linksOf other).contains target then st.addLink id other else st

/-- The state with the links of a mention to its antecedent, to those of the mentions between the
two that are linked to the antecedent, and to all that the antecedent is linked to. -/
def linkTo (st : LinkState) (id target : MentionId) (between : List MentionId) : LinkState :=
  let st := between.foldl (addMissed id target) st
  let st := st.addLink id target
  (st.linksOf target).foldl (fun s other => s.addLink id other) st

end LinkState

/-- The position of an antecedent. -/
def GoldOrder.position (order : GoldOrder) (id : MentionId) : Except Fault Position :=
  match order.positions.find? id with
  | some position => .ok position
  | none => .error (.missingGoldAntecedent id)

/-- The chain from a mention turned round until its antecedent is not later, or it has none.
`met` are the mentions already turned to point at this one; there are at most as many as are
listed. -/
def GoldOrder.turnChain (order : GoldOrder) (id : MentionId) (src : Position) :
    Nat → List MentionId → MentionId → LinkState → Except Fault (Option MentionId × LinkState)
  | 0, _, _, _ => .error (.cyclicGoldChain id)
  | steps + 1, met, target, st => do
    let place ← order.position target
    if !isEarlier src place then return (some target, st)
    else if met.contains target then throw (.cyclicGoldChain id)
    else
      match st.antecedent? target with
      | none => return (none, st.turn id target)
      | some next => order.turnChain id src steps (target :: met) next (st.turn id target)

/-- The listed mentions between two positions, both included. -/
def GoldOrder.between (order : GoldOrder) (first last : Position) : List MentionId :=
  (order.listed.filter fun (id, place) =>
    !isEarlier place first && !isEarlier last place && order.positions.find? id == some place).map
    Prod.fst

/-- The search at one mention. -/
def GoldOrder.visit (order : GoldOrder) (st : LinkState) (id : MentionId) :
    Except Fault LinkState := do
  match order.positions.find? id, st.antecedent? id with
  | some src, some first =>
    let (target?, st) ← order.turnChain id src (order.listed.length + 1) [] first st
    match target? with
    | none => return st
    | some target =>
      if target = id then throw (.cyclicGoldChain id)
      else
        let place ← order.position target
        return st.linkTo id target (order.between place src)
  | _, _ => return st

/-- All gold links of a list of rows, in the order in which they are found, with the antecedents
as turned. -/
def GoldOrder.search (order : GoldOrder) (antecedents : Table MentionId (Option MentionId)) :
    Except Fault LinkState :=
  (order.listed.map Prod.fst).foldlM order.visit { antecedents }

namespace Document

/-- The antecedents given with the listed gold mentions. -/
def givenAntecedents (doc : Document) (listed : List MentionId) :
    Table MentionId (Option MentionId) :=
  Table.ofList (listed.map fun id => (id, (doc.goldMentions.find? id).bind Mention.antecedent?))

/-- The gold links, computed at the first call and remembered. -/
def extractGoldLinks (doc : Document) : Except Fault (List (MentionId × MentionId) × Document) :=
  match doc.goldLinks? with
  | some links => .ok (links, doc)
  | none =>
    match doc.gold? with
    | none => .ok ([], { doc with goldLinks? := some [] })
    | some rows => do
      let order := GoldOrder.ofRows rows
      let st ← order.search (doc.givenAntecedents rows.flatten)
      let links := st.found.reverse
      let goldMentions := st.antecedents.entries.foldl
        (fun t (id, antecedent?) => t.modify id fun m => { m with antecedent? }) doc.goldMentions
      return (links, { doc with goldMentions, goldLinks? := some links })

end Document

end Discourse
