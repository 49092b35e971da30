import Discourse.Coreference.Clusters
import Discourse.Proofs.GoldLink.Closure
import Discourse.Proofs.Mention.Identity
/-!
# Gold clusters

Gold mentions are gathered one by one into the clusters that they name.  After some mentions a
cluster has those of them that name it, and there is no cluster without members (`Gathered`).  The
pass stops only at a mention that names no cluster.
-/

namespace Discourse

namespace Document

/-- The cluster that the data of a gold mention name. -/
def goldClusterOf? (doc : Document) (id : MentionId) : Option Nat :=
  (doc.goldMentions.find? id).bind Mention.goldCluster?

/-- The members of a gold cluster, none if it does not exist. -/
def goldMembersOf (doc : Document) (cluster : Nat) : List MentionId :=
  ((doc.goldClusters.find? cluster).getD {}).toList

theorem isCoreferent_iff (doc : Document) (a b : MentionId) :
    doc.isCoreferent a b = true ↔
      ∃ cluster, doc.goldClusterOf? a = some cluster ∧ doc.goldClusterOf? b = some cluster := by
  rw [isCoreferent, goldClusterOf?, goldClusterOf?]
  cases doc.goldMentions.find? a with
  | none => simp
  | some x =>
    cases doc.goldMentions.find? b with
    | none => simp
    | some y =>
      simp only [Option.bind_some, Bool.and_eq_true, beq_iff_eq, Option.isSome_iff_exists]
      constructor
      · rintro ⟨⟨cluster, named⟩, same⟩
        exact ⟨cluster, named, same ▸ named⟩
      · rintro ⟨cluster, named, named'⟩
        exact ⟨⟨cluster, named⟩, named.trans named'.symm⟩

/-- Clusters have been gathered from some gold mentions. -/
structure Gathered (doc : Document) (done : List MentionId)
    (found : Table Nat (KeySet MentionId)) : Prop where
  members : ∀ cluster id, id ∈ ((found.find? cluster).getD {}).toList ↔
    id ∈ done ∧ doc.goldClusterOf? id = some cluster
  inhabited : ∀ cluster members, found.find? cluster = some members → members.toList ≠ []

theorem Gathered.step {doc : Document} {done : List MentionId}
    {found : Table Nat (KeySet MentionId)} (h : Gathered doc done found) {id : MentionId}
    {cluster : Nat} (named : doc.goldClusterOf? id = some cluster) :
    Gathered doc (done ++ [id])
      (found.insert cluster (((found.find? cluster).getD {}).insert id)) where
  members := by
    intro cluster' id'
    have before := h.members cluster' id'
    rw [Table.find?_insert]
    split
    next eq =>
      rw [eq] at before ⊢
      rw [Option.getD_some, KeySet.mem_insert, before, List.mem_append, List.mem_singleton]
      constructor
      · rintro (rfl | ⟨mem, same⟩)
        · exact ⟨.inr rfl, named⟩
        · exact ⟨.inl mem, same⟩
      · rintro ⟨mem | rfl, same⟩
        · exact .inr ⟨mem, same⟩
        · exact .inl rfl
    next ne =>
      rw [before, List.mem_append, List.mem_singleton]
      refine and_congr_left fun same => ⟨.inl, fun mem => mem.resolve_right ?_⟩
      rintro rfl
      exact ne (Option.some.inj (same.symm.trans named))
  inhabited := by
    intro cluster' members at_cluster
    rw [Table.find?_insert] at at_cluster
    split at at_cluster
    next =>
      cases at_cluster
      exact List.ne_nil_of_mem ((KeySet.mem_insert _ _ _).mpr (.inl rfl))
    next => exact h.inhabited cluster' members at_cluster

theorem gatherGold_gathered {doc : Document} {rest : List MentionId}
    (named : ∀ id ∈ rest, ∃ cluster, doc.goldClusterOf? id = some cluster) {done : List MentionId}
    {found : Table Nat (KeySet MentionId)} (h : Gathered doc done found) :
    ∃ found', doc.gatherGold found rest = (found', none) ∧ Gathered doc (done ++ rest) found' := by
  induction rest generalizing done found with
  | nil =>
    refine ⟨found, rfl, ?_⟩
    rw [List.append_nil]
    exact h
  | cons id rest ih =>
    obtain ⟨⟨cluster, here⟩, named⟩ := List.forall_mem_cons.mp named
    obtain ⟨found', gathered, after⟩ := ih named (h.step here)
    refine ⟨found', ?_, ?_⟩
    · rw [goldClusterOf?] at here
      simp only [gatherGold, here]
      exact gathered
    · rw [List.append_assoc] at after
      exact after

theorem extractGoldClusters_gathered {doc : Document}
    (named : ∀ id ∈ doc.goldRows.flatten, ∃ cluster, doc.goldClusterOf? id = some cluster) :
    ∃ found, doc.extractGoldClusters = ({ doc with goldClusters := found }, .ok ()) ∧
      Gathered doc doc.goldRows.flatten found := by
  have start : Gathered doc [] {} := by
    constructor
    · intro cluster id
      simp
    · intro cluster members at_cluster
      cases at_cluster
  unfold extractGoldClusters goldRows at *
  cases rows : doc.gold? with
  | none => exact ⟨{}, rfl, start⟩
  | some gold =>
    rw [rows, Option.getD_some] at named
    obtain ⟨found, gathered, after⟩ := gatherGold_gathered named start
    refine ⟨found, ?_, after⟩
    simp only [gathered]

/-- A gold mention of the document names the cluster that its data name. -/
theorem TakenUp.goldClusterOf?_of_mem {doc d : Document} {raw : RawMentions} {count : Nat}
    {gold built filled : List Mention} (h : TakenUp doc d raw count gold built filled)
    {g : Mention} (isGold : g ∈ gold) : d.goldClusterOf? g.id = g.goldCluster? := by
  rw [goldClusterOf?, h.find?_goldMentions_of_mem isGold]
  rfl

end Document

end Discourse
