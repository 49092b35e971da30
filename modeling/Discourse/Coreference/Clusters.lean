import Discourse.Coreference.Acronym
import Discourse.Document
import Discourse.Fault
/-!
# Clusters of predicted mentions

Every predicted mention starts in a cluster of its own, and clusters grow by merging.  Two derived
relations have to follow every merge: which clusters may never be merged, and which are known to
abbreviate each other.  Both are kept on unordered pairs of cluster ids, and a merge hands the
pairs of the loser on to the winner.  Of what is known of the loser's acronyms only the positive
answers go over, because a larger cluster can only gain abbreviations.
-/

namespace Discourse

/-- Whether one side of a pair is `id`. -/
def touches (id : Nat) (pair : Nat × Nat) : Bool := pair.1 == id || pair.2 == id

/-- The other side of a pair that has `id` on one side. -/
def otherSide (id : Nat) (pair : Nat × Nat) : Nat := if pair.1 = id then pair.2 else pair.1

/-- The pairs of `loser` made pairs of `winner`, without those of the two and of `loser` alone. -/
def handOver (winner loser : Nat) (pairs : List (Nat × Nat)) : List (Nat × Nat) :=
  let others := (pairs.filter (touches loser)).map (otherSide loser)
  (others.filter fun other => other != winner && other != loser).map (unorderedPair winner)

/-- The mention as a member of a cluster. -/
def Mention.inCluster (cluster : ClusterId) (m : Mention) : Mention :=
  { m with cluster? := some cluster }

namespace Document

/-- Whether two mentions are marked as never the same. -/
def isIncompatible (doc : Document) (a b : MentionId) : Bool :=
  doc.incompatible.contains (unorderedPair a b)

/-- Whether two clusters are marked as never to be merged. -/
def areIncompatible (doc : Document) (a b : ClusterId) : Bool :=
  doc.incompatibleClusters.contains (unorderedPair a b)

/-- The document with two mentions marked as never the same, and so their present clusters. -/
def addIncompatible (doc : Document) (a b : MentionId) : Document :=
  { doc with
    incompatible := doc.incompatible.insert (unorderedPair a b)
    incompatibleClusters := doc.incompatibleClusters.insert
      (unorderedPair ((doc.clusterOf? a).getD a) ((doc.clusterOf? b).getD b)) }

/-- The incompatible pairs after `loser` goes into `winner`; a pair of the two disappears. -/
def mergePairs (winner loser : Nat) (pairs : KeySet (Nat × Nat)) : KeySet (Nat × Nat) :=
  (pairs.filter fun pair => !touches loser pair).insertAll (handOver winner loser pairs.toList)

/-- The incompatible clusters after `loser` goes into `winner`. -/
def mergeIncompatible (doc : Document) (winner loser : ClusterId) : Document :=
  if winner = loser then doc
  else { doc with incompatibleClusters := mergePairs winner loser doc.incompatibleClusters }

/-- The known answers after `loser` goes into `winner`; of those of `loser` the positive ones are
handed over. -/
def mergeAnswers (winner loser : Nat) (known : Table (Nat × Nat) Bool) : Table (Nat × Nat) Bool :=
  (handOver winner loser ((known.entries.filter Prod.snd).map Prod.fst)).foldl
    (fun t pair => t.insert pair true) (known.filterKeys fun pair => !touches loser pair)

/-- The known acronyms after `loser` goes into `winner`. -/
def mergeAcronyms (doc : Document) (winner loser : ClusterId) : Document :=
  if winner = loser then doc
  else { doc with acronyms := mergeAnswers winner loser doc.acronyms }

/-- Every member of `loser` moved into `winner`; the losing cluster stays, with no members. -/
def moveMembers (doc : Document) (winner loser : ClusterId) : Document :=
  let moved := doc.membersOf loser
  let emptied := doc.clusters.modify loser fun _ => {}
  { doc with
    mentions := moved.foldl (fun t id => t.modify id (Mention.inCluster winner)) doc.mentions
    clusters := emptied.insert winner (((emptied.find? winner).getD {}).insertAll moved) }

/-- The document with one cluster merged into another. -/
def mergeClusters (doc : Document) (winner loser : ClusterId) : Document :=
  if winner = loser then doc
  else ((doc.mergeIncompatible winner loser).mergeAcronyms winner loser).moveMembers winner loser

/-- The known answer whether one of two clusters abbreviates the other. -/
def knownAcronym? (doc : Document) (a b : ClusterId) : Option Bool :=
  doc.acronyms.find? (unorderedPair a b)

/-- The words of every member of a cluster. -/
def memberWords (doc : Document) (cluster : ClusterId) : List (List String) :=
  ((doc.membersOf cluster).filterMap doc.mention?).map fun m => Text.words m.text

/-- Whether some member of one cluster abbreviates some member of the other. -/
def abbreviate (doc : Document) (a b : ClusterId) : Bool :=
  (doc.memberWords a).any fun left => (doc.memberWords b).any (isAcronym left)

/-- Whether some member of one cluster abbreviates some member of the other, from what is known or
computed now and remembered. -/
def clusterAcronym (doc : Document) (a b : ClusterId) : Bool × Document :=
  match doc.knownAcronym? a b with
  | some known => (known, doc)
  | none =>
    let answer := doc.abbreviate a b
    (answer, { doc with acronyms := doc.acronyms.insert (unorderedPair a b) answer })

/-- Whether ids are met for the first time in clusters that the mentions themselves name. -/
def agreesFrom (doc : Document) : List MentionId → List (MentionId × ClusterId) → Bool
  | _, [] => true
  | met, (id, cluster) :: rest =>
    !met.contains id && doc.clusterOf? id == some cluster && doc.agreesFrom (id :: met) rest

/-- Every member of every cluster, with the cluster. -/
def memberships (doc : Document) : List (MentionId × ClusterId) :=
  doc.clusters.entries.flatMap fun (cluster, members) => members.toList.map fun id => (id, cluster)

/-- Whether every predicted mention is in exactly one cluster and names it. -/
def clustersPartition (doc : Document) : Bool :=
  doc.agreesFrom [] doc.memberships && doc.memberships.length == doc.mentions.size

/-- The document with one mention in a cluster of its own. -/
def startCluster (doc : Document) (id : MentionId) : Document :=
  { doc with
    clusters := doc.clusters.insert id (KeySet.ofList [id])
    mentions := doc.mentions.modify id (Mention.inCluster id) }

/-- The document with every listed mention in a cluster of its own. -/
def initializeClusters (doc : Document) : Document :=
  doc.predicted.flatten.foldl startCluster { doc with clusters := {} }

/-- Gold mentions gathered by gold cluster; the second part tells which one has none. -/
def gatherGold (doc : Document) (found : Table Nat (KeySet MentionId)) :
    List MentionId → Table Nat (KeySet MentionId) × Option MentionId
  | [] => (found, none)
  | id :: rest =>
    match (doc.goldMentions.find? id).bind Mention.goldCluster? with
    | none => (found, some id)
    | some cluster =>
      let members := (found.find? cluster).getD {}
      gatherGold doc (found.insert cluster (members.insert id)) rest

/-- The document with the gold clusters gathered, and the fault if one mention has none. -/
def extractGoldClusters (doc : Document) : Document × Except Fault Unit :=
  match doc.gold? with
  | none => ({ doc with goldClusters := {} }, .ok ())
  | some gold =>
    match doc.gatherGold {} gold.flatten with
    | (found, none) => ({ doc with goldClusters := found }, .ok ())
    | (found, some id) => ({ doc with goldClusters := found }, .error (.missingGoldCluster id))

/-- Whether two gold mentions belong to one gold cluster. -/
def isCoreferent (doc : Document) (a b : MentionId) : Bool :=
  match doc.goldMentions.find? a, doc.goldMentions.find? b with
  | some x, some y => x.goldCluster?.isSome && x.goldCluster? == y.goldCluster?
  | _, _ => false

/-- The document with the predicted mentions numbered in document order. -/
def assignPlaces (doc : Document) : Document :=
  let ordered := doc.mentions.values.mergeSort fun a b => a.documentOrder b != .gt
  (ordered.map Mention.id).zipIdx.foldl
    (fun d (id, place) => d.modifyMention id fun m => { m with place? := some place }) doc

end Document

end Discourse
