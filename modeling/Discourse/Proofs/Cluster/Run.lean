import Discourse.Coreference.Clusters
/-!
# Runs of clusters

Once every mention has a cluster of its own, three things happen to clusters, in any order: two are
merged, two mentions are marked as never the same, and one is asked whether it abbreviates another.
A run is a row of such steps.

Where a mention is after a run can be told without the document.  A merge renames the loser to the
winner and nothing else moves a mention, so its cluster is its own id under all renamings in turn.
`Placed` says that a document agrees with such a placement in both of its records, the members of
the clusters and the clusters that the mentions name; `Placed.run` is the one induction over runs,
and what is said about clusters elsewhere is read off from it.
-/

namespace Discourse

/-- What happens to clusters. -/
inductive ClusterStep
  | merge (winner loser : ClusterId)
  | mark (a b : MentionId)
  | ask (a b : ClusterId)
deriving DecidableEq, Repr

/-- Where a step leads the members of a cluster. -/
def ClusterStep.rename : ClusterStep → ClusterId → ClusterId
  | .merge winner loser, c => if c = loser then winner else c
  | .mark _ _, c => c
  | .ask _ _, c => c

theorem ClusterStep.rename_merge_self (c c' : ClusterId) :
    (ClusterStep.merge c c).rename c' = c' := by
  simp only [ClusterStep.rename]
  split <;> simp_all

theorem ClusterStep.rename_merge_eq_iff {winner loser c c' : ClusterId} (ne : winner ≠ loser) :
    (ClusterStep.merge winner loser).rename c' = c ↔
      c ≠ loser ∧ (c' = c ∨ c = winner ∧ c' = loser) := by
  by_cases h : c' = loser
  · subst h
    simp only [ClusterStep.rename, if_true, and_true]
    exact ⟨fun e => ⟨e ▸ ne, .inr e.symm⟩, fun ⟨hc, o⟩ => (o.resolve_left (Ne.symm hc)).symm⟩
  · simp only [ClusterStep.rename, h, if_false, and_false, or_false]
    exact ⟨fun e => ⟨e ▸ h, e⟩, And.right⟩

/-- Where a run leads the members of a cluster. -/
def renamings (steps : List ClusterStep) (c : ClusterId) : ClusterId :=
  steps.foldl (fun c s => s.rename c) c

namespace Document

/-- The document after a step. -/
def clusterStep (d : Document) : ClusterStep → Document
  | .merge winner loser => d.mergeClusters winner loser
  | .mark a b => d.addIncompatible a b
  | .ask a b => (d.clusterAcronym a b).2

/-- The document after a run. -/
def clusterRun (d : Document) (steps : List ClusterStep) : Document := steps.foldl clusterStep d

@[simp]
theorem clusterRun_nil (d : Document) : d.clusterRun [] = d := rfl

/-- A predicted mention is listed and has an entry. -/
def Predicts (doc : Document) (id : MentionId) : Prop :=
  id ∈ doc.predicted.flatten ∧ id ∈ doc.mentions.keys

instance (doc : Document) (id : MentionId) : Decidable (doc.Predicts id) :=
  inferInstanceAs (Decidable (_ ∧ _))

/-- No pair of mentions or clusters has been judged yet, as when a document is made.  Setting up the
clusters forgets no judgement, so one passed before would be about clusters that are gone. -/
structure Unjudged (doc : Document) : Prop where
  incompatible : doc.incompatible = {}
  incompatibleClusters : doc.incompatibleClusters = {}
  acronyms : doc.acronyms = {}

theorem unjudged_ofSentences (id : String) (sentences : List Sentence) :
    (ofSentences id sentences).Unjudged :=
  ⟨rfl, rfl, rfl⟩

theorem Unjudged.addMention {doc : Document} (h : doc.Unjudged) (m : Mention) :
    (doc.addMention m).Unjudged :=
  ⟨h.incompatible, h.incompatibleClusters, h.acronyms⟩

/-- A document of one sentence whose mentions have the given texts and are numbered from 0. -/
def ofTexts (texts : List String) : Document :=
  texts.zipIdx.foldl
    (fun d (text, id) =>
      d.addMention { id, sentence := 0, start := id, stop := id + 1, head := id, text })
    (ofSentences "" [])

theorem unjudged_ofTexts (texts : List String) : (ofTexts texts).Unjudged := by
  unfold ofTexts
  generalize texts.zipIdx = numbered
  have go : ∀ d : Document, d.Unjudged → (numbered.foldl
      (fun d (text, id) =>
        d.addMention { id, sentence := 0, start := id, stop := id + 1, head := id, text })
      d).Unjudged := by
    induction numbered with
    | nil => exact fun _ h => h
    | cons entry rest ih => exact fun d h => ih _ (h.addMention _)
  exact go _ (unjudged_ofSentences _ _)

/-! ## What a question leaves alone -/

theorem clusterAcronym_of_known {d : Document} {a b : ClusterId} {known : Bool}
    (h : d.knownAcronym? a b = some known) : d.clusterAcronym a b = (known, d) := by
  simp [clusterAcronym, h]

theorem clusterAcronym_of_unknown {d : Document} {a b : ClusterId}
    (h : d.knownAcronym? a b = none) :
    d.clusterAcronym a b =
      (d.abbreviate a b,
        { d with acronyms := d.acronyms.insert (unorderedPair a b) (d.abbreviate a b) }) := by
  simp [clusterAcronym, h]

theorem clusterAcronym_eq (d : Document) (a b : ClusterId) :
    ∃ acronyms, (d.clusterAcronym a b).2 = { d with acronyms } := by
  cases h : d.knownAcronym? a b with
  | some known => exact ⟨d.acronyms, congrArg Prod.snd (clusterAcronym_of_known h)⟩
  | none => exact ⟨_, congrArg Prod.snd (clusterAcronym_of_unknown h)⟩

/-! ## Merging -/

@[simp]
theorem mergeClusters_self (d : Document) (c : ClusterId) : d.mergeClusters c c = d := by
  simp [mergeClusters]

theorem mergeClusters_of_ne (d : Document) {winner loser : ClusterId} (ne : winner ≠ loser) :
    d.mergeClusters winner loser =
      ({ d with
          incompatibleClusters := mergePairs winner loser d.incompatibleClusters
          acronyms := mergeAnswers winner loser d.acronyms } : Document).moveMembers
        winner loser := by
  simp [mergeClusters, mergeIncompatible, mergeAcronyms, ne]

theorem mem_membersOf_iff (d : Document) (c : ClusterId) (id : MentionId) :
    id ∈ d.membersOf c ↔ ∃ members, d.clusters.find? c = some members ∧ id ∈ members.toList := by
  unfold membersOf
  cases d.clusters.find? c with
  | none => simp
  | some members => simp

/-- The members of the loser go to the winner, and nobody else moves. -/
theorem mem_membersOf_moveMembers (d : Document) {winner loser : ClusterId} (ne : winner ≠ loser)
    (c : ClusterId) (id : MentionId) :
    id ∈ (d.moveMembers winner loser).membersOf c ↔
      c ≠ loser ∧ (id ∈ d.membersOf c ∨ c = winner ∧ id ∈ d.membersOf loser) := by
  have kept : (d.clusters.modify loser fun _ => {}).find? winner = d.clusters.find? winner := by
    simp [Table.find?_modify, ne]
  by_cases hw : c = winner
  · subst hw
    simp [membersOf, moveMembers, kept, ne]
  · by_cases hl : c = loser
    · subst hl
      cases h : d.clusters.find? c <;>
        simp [membersOf, moveMembers, Table.find?_insert, Table.find?_modify, hw, h]
    · simp [membersOf, moveMembers, Table.find?_insert, Table.find?_modify, hw, hl]

theorem mem_membersOf_mergeClusters (d : Document) (winner loser c : ClusterId) (id : MentionId) :
    id ∈ (d.mergeClusters winner loser).membersOf c ↔
      ∃ c', id ∈ d.membersOf c' ∧ (ClusterStep.merge winner loser).rename c' = c := by
  by_cases ne : winner = loser
  · subst ne
    rw [mergeClusters_self]
    constructor
    · intro h
      refine ⟨c, h, ?_⟩
      simp only [ClusterStep.rename]
      split <;> simp_all
    · rintro ⟨c', h, rfl⟩
      simp only [ClusterStep.rename]
      split
      next e => exact e ▸ h
      next => exact h
  · rw [mergeClusters_of_ne d ne, mem_membersOf_moveMembers _ ne]
    constructor
    · rintro ⟨hl, h | ⟨rfl, h⟩⟩
      · exact ⟨c, h, if_neg hl⟩
      · exact ⟨loser, h, if_pos rfl⟩
    · rintro ⟨c', h, rfl⟩
      simp only [ClusterStep.rename]
      split
      next e => exact ⟨ne, .inr ⟨rfl, e ▸ h⟩⟩
      next hl => exact ⟨hl, .inl h⟩

/-- The members of the loser name the winner, and nobody else's entry changes. -/
theorem mention?_mergeClusters (d : Document) (winner loser : ClusterId) (id : MentionId) :
    (d.mergeClusters winner loser).mention? id =
      if winner ≠ loser ∧ id ∈ d.membersOf loser then
        (d.mention? id).map (Mention.inCluster winner)
      else d.mention? id := by
  by_cases ne : winner = loser
  · subst ne
    simp
  · rw [mergeClusters_of_ne d ne]
    simp only [moveMembers, mention?, ne, ne_eq, not_false_eq_true, true_and]
    exact Table.find?_foldl_modify (fun _ => Mention.inCluster winner) (fun _ _ => rfl) _ _ _

theorem keys_mergeClusters (d : Document) (winner loser : ClusterId) :
    (d.mergeClusters winner loser).mentions.keys = d.mentions.keys := by
  by_cases ne : winner = loser
  · subst ne
    simp
  · rw [mergeClusters_of_ne d ne]
    exact Table.keys_foldl_modify (fun _ => Mention.inCluster winner) _ _

/-! ## Placements -/

/-- Every listed mention is in the cluster that `place` gives and names it, and the clusters hold
nothing else. -/
structure Placed (doc d : Document) (place : MentionId → ClusterId) : Prop where
  members : ∀ c id, id ∈ d.membersOf c ↔ id ∈ doc.predicted.flatten ∧ place id = c
  names : ∀ id ∈ doc.predicted.flatten, ∀ m, d.mention? id = some m → m.cluster? = some (place id)
  keys : d.mentions.keys = doc.mentions.keys

theorem foldl_startCluster (ids : List MentionId) (d : Document) :
    ids.foldl startCluster d =
      { d with
        clusters := ids.foldl (fun t id => t.insert id (KeySet.ofList [id])) d.clusters
        mentions := ids.foldl (fun t id => t.modify id (Mention.inCluster id)) d.mentions } := by
  induction ids generalizing d with
  | nil => rfl
  | cons id rest ih => exact ih _

theorem initializeClusters_eq (doc : Document) :
    doc.initializeClusters =
      { doc with
        clusters := doc.predicted.flatten.foldl (fun t id => t.insert id (KeySet.ofList [id])) {}
        mentions :=
          doc.predicted.flatten.foldl (fun t id => t.modify id (Mention.inCluster id))
            doc.mentions } :=
  foldl_startCluster _ _

theorem Unjudged.initializeClusters {doc : Document} (h : doc.Unjudged) :
    doc.initializeClusters.Unjudged := by
  rw [initializeClusters_eq]
  exact ⟨h.incompatible, h.incompatibleClusters, h.acronyms⟩

theorem placed_initializeClusters (doc : Document) :
    Placed doc doc.initializeClusters fun id => id := by
  rw [initializeClusters_eq]
  refine ⟨fun c m => ?_, fun m listed entry h => ?_, ?_⟩
  · simp only [membersOf, Table.find?_foldl_insert fun id : MentionId => KeySet.ofList [id]]
    by_cases h : c ∈ doc.predicted.flatten
    · simp only [h, if_true, Option.getD_some, KeySet.ofList, KeySet.mem_insertAll,
        KeySet.toList_empty, List.not_mem_nil, false_or, List.mem_singleton]
      exact ⟨fun e => ⟨e ▸ h, e⟩, fun e => e.2⟩
    · simp only [h, if_false, Table.find?_empty, Option.getD_none, KeySet.toList_empty,
        List.not_mem_nil, false_iff, not_and]
      exact fun listed e => h (e ▸ listed)
  · rw [mention?, Table.find?_foldl_modify Mention.inCluster (fun _ _ => rfl),
      if_pos listed] at h
    obtain ⟨old, -, rfl⟩ := Option.map_eq_some_iff.mp h
    rfl
  · exact Table.keys_foldl_modify Mention.inCluster _ _

namespace Placed

variable {doc d : Document} {place : MentionId → ClusterId}

theorem merge (h : Placed doc d place) (winner loser : ClusterId) :
    Placed doc (d.mergeClusters winner loser)
      fun id => (ClusterStep.merge winner loser).rename (place id) := by
  refine ⟨fun c id => ?_, fun id listed m found => ?_, ?_⟩
  · rw [mem_membersOf_mergeClusters]
    constructor
    · rintro ⟨c', mem, rfl⟩
      obtain ⟨listed, rfl⟩ := (h.members c' id).mp mem
      exact ⟨listed, rfl⟩
    · rintro ⟨listed, rfl⟩
      exact ⟨place id, (h.members _ id).mpr ⟨listed, rfl⟩, rfl⟩
  · rw [mention?_mergeClusters] at found
    simp only [h.members, listed, true_and] at found
    simp only [ClusterStep.rename]
    by_cases hl : place id = loser
    · by_cases ne : winner = loser
      · rw [if_neg (fun c => c.1 ne)] at found
        rw [h.names id listed m found, hl, ne, if_pos rfl]
      · rw [if_pos ⟨ne, hl⟩] at found
        obtain ⟨old, -, rfl⟩ := Option.map_eq_some_iff.mp found
        rw [if_pos hl]
        rfl
    · rw [if_neg (fun c => hl c.2)] at found
      rw [if_neg hl, h.names id listed m found]
  · rw [keys_mergeClusters, h.keys]

theorem step (h : Placed doc d place) (s : ClusterStep) :
    Placed doc (d.clusterStep s) fun id => s.rename (place id) := by
  cases s with
  | merge winner loser => exact h.merge winner loser
  | mark a b => exact ⟨h.members, h.names, h.keys⟩
  | ask a b =>
    obtain ⟨acronyms, e⟩ := d.clusterAcronym_eq a b
    simp only [clusterStep, e]
    exact ⟨h.members, h.names, h.keys⟩

theorem run (h : Placed doc d place) (steps : List ClusterStep) :
    Placed doc (d.clusterRun steps) fun id => renamings steps (place id) := by
  induction steps generalizing d place with
  | nil => exact h
  | cons s rest ih => exact ih (h.step s)

/-- A listed mention names the cluster it is in. -/
theorem clusterOf?_eq (h : Placed doc d place) {id : MentionId}
    (listed : id ∈ doc.predicted.flatten) (key : id ∈ doc.mentions.keys) :
    d.clusterOf? id = some (place id) := by
  rw [← h.keys, Table.mem_keys_iff] at key
  obtain ⟨m, found⟩ := Option.isSome_iff_exists.mp key
  exact Option.bind_eq_some_iff.mpr ⟨m, found, h.names id listed m found⟩

end Placed

/-- After any run a mention is where the renamings lead its own id. -/
theorem placed_clusterRun (doc : Document) (steps : List ClusterStep) :
    Placed doc (doc.initializeClusters.clusterRun steps) (renamings steps) :=
  doc.placed_initializeClusters.run steps

end Document

end Discourse
