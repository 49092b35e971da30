import Discourse.Proofs.Cluster.Pair
import Mathlib.Tactic.Tauto
/-!
# Incompatible clusters

Two clusters are incompatible because two of their mentions are.  The relation on mentions only
grows, by marks; the relation on clusters is kept beside it under the ids of the clusters, and every
merge rewrites it.  The two stay in step: after any run two different clusters are incompatible
exactly if they hold two incompatible mentions (`areIncompatible_clusterRun_iff`).

With a placement of the mentions the invariant `Judged` is short.  The cluster relation is the image
of the mention relation under the placement, a merge composes the placement with its renaming, and
`unorderedPair_mem_mergePairs_iff` says that rewriting the pairs takes exactly that image.
-/

namespace Discourse

namespace Document

theorem mem_mergePairs_iff {pairs : KeySet (Nat × Nat)} (ordered : PairsOrdered pairs.toList)
    (winner loser : Nat) (pair : Nat × Nat) :
    pair ∈ (mergePairs winner loser pairs).toList ↔
      pair ∈ pairs.toList ∧ touches loser pair = false ∨
        ∃ other, other ≠ winner ∧ other ≠ loser ∧ unorderedPair loser other ∈ pairs.toList ∧
          pair = unorderedPair winner other := by
  simp only [mergePairs, KeySet.mem_insertAll, KeySet.mem_filter, Bool.not_eq_true',
    mem_handOver_iff ordered]

theorem mergePairs_ordered {pairs : KeySet (Nat × Nat)} (ordered : PairsOrdered pairs.toList)
    (winner loser : Nat) : PairsOrdered (mergePairs winner loser pairs).toList := by
  intro pair mem
  rcases (mem_mergePairs_iff ordered winner loser pair).mp mem with ⟨mem, -⟩ | ⟨_, _, _, _, rfl⟩
  · exact ordered pair mem
  · exact unorderedPair_le ..

/-- Rewriting the pairs takes their image under the renaming, the pairs of a cluster with itself
apart. -/
theorem unorderedPair_mem_mergePairs_iff {pairs : KeySet (Nat × Nat)}
    (ordered : PairsOrdered pairs.toList) {winner loser : Nat} (ne : winner ≠ loser) {c e : Nat}
    (ce : c ≠ e) :
    unorderedPair c e ∈ (mergePairs winner loser pairs).toList ↔
      ∃ c' e', (ClusterStep.merge winner loser).rename c' = c ∧
        (ClusterStep.merge winner loser).rename e' = e ∧ unorderedPair c' e' ∈ pairs.toList := by
  simp only [mem_mergePairs_iff ordered, ClusterStep.rename_merge_eq_iff ne,
    ← Bool.not_eq_true, touches_unorderedPair, not_or]
  constructor
  · rintro (⟨mem, hc, he⟩ | ⟨other, neW, neL, mem, eq⟩)
    · exact ⟨c, e, ⟨hc, .inl rfl⟩, ⟨he, .inl rfl⟩, mem⟩
    · rcases unorderedPair_eq_iff.mp eq with ⟨rfl, rfl⟩ | ⟨rfl, rfl⟩
      · exact ⟨loser, e, ⟨ne, .inr ⟨rfl, rfl⟩⟩, ⟨neL, .inl rfl⟩, mem⟩
      · exact ⟨c, loser, ⟨neL, .inl rfl⟩, ⟨ne, .inr ⟨rfl, rfl⟩⟩, unorderedPair_comm .. ▸ mem⟩
  · rintro ⟨c', e', ⟨hc, rfl | ⟨rfl, rfl⟩⟩, ⟨he, rfl | ⟨rfl, rfl⟩⟩, mem⟩
    · exact .inl ⟨mem, hc, he⟩
    · exact .inr ⟨c', ce, hc, unorderedPair_comm .. ▸ mem, unorderedPair_comm ..⟩
    · exact .inr ⟨e', ce.symm, he, mem, rfl⟩
    · exact absurd rfl ce

/-! ## The two relations -/

theorem isIncompatible_comm (d : Document) (a b : MentionId) :
    d.isIncompatible a b = d.isIncompatible b a := by
  simp only [isIncompatible, unorderedPair_comm a b]

theorem areIncompatible_comm (d : Document) (a b : ClusterId) :
    d.areIncompatible a b = d.areIncompatible b a := by
  simp only [areIncompatible, unorderedPair_comm a b]

theorem areIncompatible_iff (d : Document) (c e : ClusterId) :
    d.areIncompatible c e = true ↔ unorderedPair c e ∈ d.incompatibleClusters.toList :=
  KeySet.contains_iff _ _

theorem isIncompatible_addIncompatible (d : Document) (a b x y : MentionId) :
    (d.addIncompatible a b).isIncompatible x y = true ↔
      (x = a ∧ y = b ∨ x = b ∧ y = a) ∨ d.isIncompatible x y = true := by
  simp only [isIncompatible, addIncompatible, KeySet.contains_iff, KeySet.mem_insert,
    unorderedPair_eq_iff]

theorem isIncompatible_mergeClusters (d : Document) (winner loser : ClusterId) (x y : MentionId) :
    (d.mergeClusters winner loser).isIncompatible x y = d.isIncompatible x y := by
  by_cases ne : winner = loser
  · subst ne
    rw [mergeClusters_self]
  · rw [mergeClusters_of_ne d ne]
    rfl

theorem isIncompatible_clusterAcronym (d : Document) (a b : ClusterId) (x y : MentionId) :
    (d.clusterAcronym a b).2.isIncompatible x y = d.isIncompatible x y := by
  obtain ⟨acronyms, e⟩ := d.clusterAcronym_eq a b
  rw [e]
  rfl

/-- The mentions that are incompatible after a run are those that were, and those it marked. -/
theorem isIncompatible_clusterRun_iff (d : Document) (steps : List ClusterStep)
    (x y : MentionId) :
    (d.clusterRun steps).isIncompatible x y = true ↔
      d.isIncompatible x y = true ∨ .mark x y ∈ steps ∨ .mark y x ∈ steps := by
  induction steps generalizing d with
  | nil => simp
  | cons s rest ih =>
    show ((d.clusterStep s).clusterRun rest).isIncompatible x y = true ↔ _
    rw [ih]
    cases s with
    | merge winner loser => simp [clusterStep, isIncompatible_mergeClusters]
    | ask a b => simp [clusterStep, isIncompatible_clusterAcronym]
    | mark a b =>
      simp only [clusterStep, isIncompatible_addIncompatible, List.mem_cons,
        ClusterStep.mark.injEq]
      tauto

/-! ## One as the image of the other -/

/-- The relation on clusters is the image of the one on mentions under the placement. -/
structure Judged (d : Document) (place : MentionId → ClusterId) : Prop where
  ordered : PairsOrdered d.incompatibleClusters.toList
  image : ∀ c e, c ≠ e →
    (d.areIncompatible c e = true ↔
      ∃ a b, place a = c ∧ place b = e ∧ d.isIncompatible a b = true)

namespace Judged

variable {doc d : Document} {place : MentionId → ClusterId}

theorem merge (h : Judged d place) (winner loser : ClusterId) :
    Judged (d.mergeClusters winner loser)
      fun id => (ClusterStep.merge winner loser).rename (place id) := by
  by_cases ne : winner = loser
  · subst ne
    simpa only [mergeClusters_self, ClusterStep.rename_merge_self] using h
  · have pairs : (d.mergeClusters winner loser).incompatibleClusters =
        mergePairs winner loser d.incompatibleClusters := by
      rw [mergeClusters_of_ne d ne]
      rfl
    refine ⟨pairs ▸ mergePairs_ordered h.ordered winner loser, fun c e ce => ?_⟩
    rw [areIncompatible_iff, pairs, unorderedPair_mem_mergePairs_iff h.ordered ne ce]
    simp only [isIncompatible_mergeClusters, ← areIncompatible_iff]
    constructor
    · rintro ⟨c', e', rfl, rfl, incompatible⟩
      obtain ⟨a, b, rfl, rfl, marked⟩ :=
        (h.image c' e' fun eq => ce (congrArg _ eq)).mp incompatible
      exact ⟨a, b, rfl, rfl, marked⟩
    · rintro ⟨a, b, rfl, rfl, marked⟩
      exact ⟨place a, place b, rfl, rfl,
        (h.image _ _ fun eq => ce (congrArg _ eq)).mpr ⟨a, b, rfl, rfl, marked⟩⟩

theorem mark (h : Judged d place) {a b : MentionId} (ha : d.clusterOf? a = some (place a))
    (hb : d.clusterOf? b = some (place b)) : Judged (d.addIncompatible a b) place := by
  have pairs : (d.addIncompatible a b).incompatibleClusters =
      d.incompatibleClusters.insert (unorderedPair (place a) (place b)) := by
    simp [addIncompatible, ha, hb]
  refine ⟨fun pair mem => ?_, fun c e ce => ?_⟩
  · rw [pairs, KeySet.mem_insert] at mem
    rcases mem with rfl | mem
    · exact unorderedPair_le ..
    · exact h.ordered pair mem
  · rw [areIncompatible_iff, pairs, KeySet.mem_insert, unorderedPair_eq_iff,
      ← areIncompatible_iff, h.image c e ce]
    simp only [isIncompatible_addIncompatible]
    constructor
    · rintro ((⟨rfl, rfl⟩ | ⟨rfl, rfl⟩) | ⟨x, y, hx, hy, marked⟩)
      · exact ⟨a, b, rfl, rfl, .inl (.inl ⟨rfl, rfl⟩)⟩
      · exact ⟨b, a, rfl, rfl, .inl (.inr ⟨rfl, rfl⟩)⟩
      · exact ⟨x, y, hx, hy, .inr marked⟩
    · rintro ⟨x, y, rfl, rfl, (⟨rfl, rfl⟩ | ⟨rfl, rfl⟩) | marked⟩
      · exact .inl (.inl ⟨rfl, rfl⟩)
      · exact .inl (.inr ⟨rfl, rfl⟩)
      · exact .inr ⟨x, y, rfl, rfl, marked⟩

theorem step (h : Judged d place) (placed : Placed doc d place) {s : ClusterStep}
    (predicted : ∀ a b, s = .mark a b → doc.Predicts a ∧ doc.Predicts b) :
    Judged (d.clusterStep s) fun id => s.rename (place id) := by
  cases s with
  | merge winner loser => exact h.merge winner loser
  | ask a b =>
    obtain ⟨acronyms, e⟩ := d.clusterAcronym_eq a b
    simp only [clusterStep, e]
    exact ⟨h.ordered, h.image⟩
  | mark a b =>
    obtain ⟨ha, hb⟩ := predicted a b rfl
    exact h.mark (placed.clusterOf?_eq ha.1 ha.2) (placed.clusterOf?_eq hb.1 hb.2)

theorem run (h : Judged d place) (placed : Placed doc d place) {steps : List ClusterStep}
    (predicted : ∀ a b, .mark a b ∈ steps → doc.Predicts a ∧ doc.Predicts b) :
    Judged (d.clusterRun steps) fun id => renamings steps (place id) := by
  induction steps generalizing d place with
  | nil => exact h
  | cons s rest ih =>
    refine ih (h.step placed fun a b e => predicted a b (e ▸ List.mem_cons_self)) (placed.step s)
      fun a b mem => predicted a b (List.mem_cons_of_mem _ mem)

end Judged

theorem Unjudged.isIncompatible_eq {d : Document} (unjudged : d.Unjudged) (a b : MentionId) :
    d.isIncompatible a b = false := by
  rw [isIncompatible, unjudged.incompatible]
  rfl

theorem Unjudged.areIncompatible_eq {d : Document} (unjudged : d.Unjudged) (c e : ClusterId) :
    d.areIncompatible c e = false := by
  rw [areIncompatible, unjudged.incompatibleClusters]
  rfl

theorem Unjudged.judged {d : Document} (unjudged : d.Unjudged) (place : MentionId → ClusterId) :
    Judged d place := by
  refine ⟨fun pair mem => ?_, fun c e _ => ?_⟩
  · rw [unjudged.incompatibleClusters] at mem
    exact absurd mem List.not_mem_nil
  · simp [unjudged.isIncompatible_eq, unjudged.areIncompatible_eq]

/-- After any run that marks predicted mentions two different clusters are incompatible exactly if
two of their mentions are.  Both relations are symmetric, and the one on mentions is what the run
marked, so no merge changes it. -/
theorem areIncompatible_clusterRun_iff (doc : Document) (unjudged : doc.Unjudged)
    (steps : List ClusterStep)
    (predicted : ∀ a b, .mark a b ∈ steps → doc.Predicts a ∧ doc.Predicts b) :
    let d := doc.initializeClusters.clusterRun steps
    (∀ c e, c ≠ e →
        (d.areIncompatible c e = true ↔
          ∃ a ∈ d.membersOf c, ∃ b ∈ d.membersOf e, d.isIncompatible a b = true)) ∧
      (∀ c e, d.areIncompatible c e = d.areIncompatible e c) ∧
      (∀ a b, d.isIncompatible a b = d.isIncompatible b a) ∧
      (∀ a b, d.isIncompatible a b = true ↔ .mark a b ∈ steps ∨ .mark b a ∈ steps) ∧
      ∀ winner loser a b,
        (d.mergeClusters winner loser).isIncompatible a b = d.isIncompatible a b := by
  intro d
  have placed : Placed doc d (renamings steps) := doc.placed_clusterRun steps
  have judged : Judged d (renamings steps) :=
    (unjudged.initializeClusters.judged _).run doc.placed_initializeClusters predicted
  have marked : ∀ a b, d.isIncompatible a b = true ↔ .mark a b ∈ steps ∨ .mark b a ∈ steps := by
    intro a b
    simp [d, isIncompatible_clusterRun_iff, unjudged.initializeClusters.isIncompatible_eq]
  have listed : ∀ a b, d.isIncompatible a b = true → a ∈ doc.predicted.flatten := by
    intro a b h
    rcases (marked a b).mp h with h | h
    · exact (predicted a b h).1.1
    · exact (predicted b a h).2.1
  refine ⟨fun c e ce => ?_, d.areIncompatible_comm, d.isIncompatible_comm, marked,
    d.isIncompatible_mergeClusters⟩
  rw [judged.image c e ce]
  constructor
  · rintro ⟨a, b, ha, hb, h⟩
    exact ⟨a, (placed.members c a).mpr ⟨listed a b h, ha⟩, b,
      (placed.members e b).mpr ⟨listed b a (d.isIncompatible_comm a b ▸ h), hb⟩, h⟩
  · rintro ⟨a, ha, b, hb, h⟩
    exact ⟨a, b, ((placed.members c a).mp ha).2, ((placed.members e b).mp hb).2, h⟩

/-- Two incompatible clusters are merged, and the retired one then wins another merge. -/
theorem areIncompatible_clusterRun_reused :
    let doc := ofTexts ["a", "b", "c", "d"]
    let steps := [.mark 1 2, .merge 2 1, .mark 1 3, .merge 1 0, .mark 0 3]
    doc.Unjudged ∧
      (∀ a b, .mark a b ∈ steps → doc.Predicts a ∧ doc.Predicts b) ∧
      ((doc.initializeClusters.clusterRun steps).areIncompatible 1 3 = true ↔
        ∃ a ∈ (doc.initializeClusters.clusterRun steps).membersOf 1,
          ∃ b ∈ (doc.initializeClusters.clusterRun steps).membersOf 3,
            (doc.initializeClusters.clusterRun steps).isIncompatible a b = true) := by
  intro doc steps
  have unjudged : doc.Unjudged := unjudged_ofTexts _
  have predicted : ∀ a b, .mark a b ∈ steps → doc.Predicts a ∧ doc.Predicts b := by
    intro a b mem
    simp only [steps, List.mem_cons, ClusterStep.mark.injEq, List.not_mem_nil, or_false,
      reduceCtorEq, false_or] at mem
    rcases mem with ⟨rfl, rfl⟩ | ⟨rfl, rfl⟩ | ⟨rfl, rfl⟩ <;> decide
  exact ⟨unjudged, predicted,
    (areIncompatible_clusterRun_iff doc unjudged steps predicted).1 1 3 (by decide)⟩

end Document

end Discourse
