import Discourse.Proofs.Cluster.Incompatibility
import Mathlib.Data.List.Induction
/-!
# Clusters incompatible with themselves

A merge drops the pair of the two clusters it joins, so it makes no pair of a cluster with itself; a
mark looks only at where the two mentions are, and makes one if they are together.  What was made
stays for as long as the cluster is not retired, and goes with it, for a merge hands no such pair to
the winner.  So a cluster is incompatible with itself exactly if two of its mentions were marked
when it held them both and it has not been retired since
(`areIncompatible_self_clusterRun_iff`).
-/

namespace Discourse

theorem unorderedPair_self (c : Nat) : unorderedPair c c = (c, c) := by
  simp [unorderedPair]

/-- No pair becomes the pair of a cluster with itself by a merge. -/
theorem mergedPair_eq_self_iff {winner loser c : Nat} (pair : Nat × Nat) :
    mergedPair winner loser pair = some (c, c) ↔ pair = (c, c) ∧ c ≠ loser := by
  by_cases touch : touches loser pair = true
  · rw [mergedPair_of_touches touch, ← unorderedPair_self, unorderedPair_eq_iff]
    constructor
    · rintro ⟨neW, -, same⟩
      exact absurd (by omega) neW
    · rintro ⟨rfl, ne⟩
      exact absurd ((touches_unorderedPair ..).mp touch) (by simpa using ne)
  · rw [mergedPair_of_not_touches touch, Option.some.injEq]
    constructor
    · rintro rfl
      exact ⟨rfl, fun eq => touch (by simp [touches, eq])⟩
    · exact And.left

namespace Document

theorem areIncompatible_self_mergeClusters (d : Document) (winner loser c : ClusterId) :
    (d.mergeClusters winner loser).areIncompatible c c = true ↔
      d.areIncompatible c c = true ∧ (ClusterStep.merge winner loser).rename c = c := by
  by_cases ne : winner = loser
  · subst ne
    simp only [mergeClusters_self, ClusterStep.rename_merge_self, and_true]
  · have kept : (ClusterStep.merge winner loser).rename c = c ↔ c ≠ loser := by
      rw [ClusterStep.rename_merge_eq_iff ne]
      simp
    rw [areIncompatible_iff, areIncompatible_iff, mergeClusters_of_ne d ne, kept,
      unorderedPair_self]
    simp only [moveMembers, mem_mergePairs_iff_mergedPair, mergedPair_eq_self_iff]
    constructor
    · rintro ⟨_, mem, rfl, ne⟩
      exact ⟨mem, ne⟩
    · rintro ⟨mem, ne⟩
      exact ⟨_, mem, rfl, ne⟩

theorem areIncompatible_self_addIncompatible {d : Document} {a b : MentionId} {ca cb : ClusterId}
    (ha : d.clusterOf? a = some ca) (hb : d.clusterOf? b = some cb) (c : ClusterId) :
    (d.addIncompatible a b).areIncompatible c c = true ↔
      ca = c ∧ cb = c ∨ d.areIncompatible c c = true := by
  simp only [areIncompatible_iff, addIncompatible, ha, hb, Option.getD_some, KeySet.mem_insert,
    unorderedPair_eq_iff, eq_comm (a := c)]
  rw [and_comm (a := cb = c), or_self]

theorem areIncompatible_clusterAcronym (d : Document) (a b c e : ClusterId) :
    (d.clusterAcronym a b).2.areIncompatible c e = d.areIncompatible c e := by
  obtain ⟨acronyms, eq⟩ := d.clusterAcronym_eq a b
  rw [eq]
  rfl

/-- One step makes a cluster incompatible with itself by a mark of two members, and keeps it so
unless it retires the cluster. -/
theorem areIncompatible_self_clusterStep_iff {doc d : Document} {place : MentionId → ClusterId}
    (placed : Placed doc d place) {s : ClusterStep}
    (predicted : ∀ a b, s = .mark a b → doc.Predicts a ∧ doc.Predicts b) (c : ClusterId) :
    (d.clusterStep s).areIncompatible c c = true ↔
      (∃ a b, s = .mark a b ∧ a ∈ d.membersOf c ∧ b ∈ d.membersOf c) ∨
        d.areIncompatible c c = true ∧ s.rename c = c := by
  cases s with
  | merge winner loser => simp [clusterStep, areIncompatible_self_mergeClusters]
  | ask a b => simp [clusterStep, areIncompatible_clusterAcronym, ClusterStep.rename]
  | mark a b =>
    obtain ⟨ha, hb⟩ := predicted a b rfl
    have together : place a = c ∧ place b = c ↔ a ∈ d.membersOf c ∧ b ∈ d.membersOf c := by
      simp only [placed.members, ha.1, hb.1, true_and]
    simp only [clusterStep, ClusterStep.rename, and_true, ClusterStep.mark.injEq,
      areIncompatible_self_addIncompatible (placed.clusterOf?_eq ha.1 ha.2)
        (placed.clusterOf?_eq hb.1 hb.2), together]
    constructor
    · exact Or.imp_left fun members => ⟨a, b, ⟨rfl, rfl⟩, members⟩
    · rintro (⟨_, _, ⟨rfl, rfl⟩, members⟩ | kept)
      · exact .inl members
      · exact .inr kept

/-- Two members of the cluster were marked in the run, and the cluster has not been retired
since. -/
def MarkedWithin (d : Document) (steps : List ClusterStep) (c : ClusterId) : Prop :=
  ∃ before a b after, steps = before ++ .mark a b :: after ∧
    a ∈ (d.clusterRun before).membersOf c ∧ b ∈ (d.clusterRun before).membersOf c ∧
    ∀ s ∈ after, s.rename c = c

theorem not_markedWithin_nil (d : Document) (c : ClusterId) : ¬ d.MarkedWithin [] c := by
  rintro ⟨before, a, b, after, eq, -⟩
  exact absurd eq.symm (by simp)

theorem markedWithin_append_singleton_iff (d : Document) (steps : List ClusterStep)
    (s : ClusterStep) (c : ClusterId) :
    d.MarkedWithin (steps ++ [s]) c ↔
      (∃ a b, s = .mark a b ∧ a ∈ (d.clusterRun steps).membersOf c ∧
          b ∈ (d.clusterRun steps).membersOf c) ∨
        d.MarkedWithin steps c ∧ s.rename c = c := by
  constructor
  · rintro ⟨before, a, b, after, eq, inA, inB, kept⟩
    -- the mark was the last step, or the last step is one of those after it
    rcases after.eq_nil_or_concat with rfl | ⟨after, last, rfl⟩
    · obtain ⟨rfl, same⟩ := List.append_inj' eq rfl
      exact .inl ⟨a, b, List.head_eq_of_cons_eq same, inA, inB⟩
    · rw [List.concat_eq_append, ← List.cons_append, ← List.append_assoc] at eq
      obtain ⟨rfl, same⟩ := List.append_inj' eq rfl
      obtain rfl := List.head_eq_of_cons_eq same
      exact .inr ⟨⟨before, a, b, after, rfl, inA, inB, fun t mem => kept t (by simp [mem])⟩,
        kept s (by simp)⟩
  · rintro (⟨a, b, rfl, inA, inB⟩ | ⟨⟨before, a, b, after, rfl, inA, inB, kept⟩, last⟩)
    · exact ⟨steps, a, b, [], rfl, inA, inB, by simp⟩
    · refine ⟨before, a, b, after ++ [s], by simp, inA, inB, fun t mem => ?_⟩
      rcases List.mem_append.mp mem with mem | mem
      · exact kept t mem
      · exact List.mem_singleton.mp mem ▸ last

/-- After any run a cluster is incompatible with itself exactly if it was before the run, or two of
its members were marked while it held them both, and it has not been retired since. -/
theorem areIncompatible_self_clusterRun_iff (doc : Document) (steps : List ClusterStep)
    (predicted : ∀ a b, .mark a b ∈ steps → doc.Predicts a ∧ doc.Predicts b) (c : ClusterId) :
    (doc.initializeClusters.clusterRun steps).areIncompatible c c = true ↔
      doc.initializeClusters.MarkedWithin steps c ∨
        doc.areIncompatible c c = true ∧ ∀ s ∈ steps, s.rename c = c := by
  induction steps using List.reverseRecOn with
  | nil =>
    have start : doc.initializeClusters.areIncompatible c c = doc.areIncompatible c c := by
      rw [initializeClusters_eq]
      rfl
    simp [not_markedWithin_nil, start]
  | append_singleton steps s ih =>
    have ih := ih fun a b mem => predicted a b (List.mem_append_left _ mem)
    have last : ∀ a b, s = .mark a b → doc.Predicts a ∧ doc.Predicts b := fun a b eq =>
      predicted a b (eq ▸ List.mem_append_right _ List.mem_cons_self)
    have run : doc.initializeClusters.clusterRun (steps ++ [s]) =
        (doc.initializeClusters.clusterRun steps).clusterStep s :=
      List.foldl_append
    rw [run, areIncompatible_self_clusterStep_iff (doc.placed_clusterRun steps) last, ih,
      markedWithin_append_singleton_iff]
    simp only [List.forall_mem_append, List.forall_mem_singleton, or_and_right, and_assoc, or_assoc]

/-- Cluster 0 is retired after the mark, and winning another merge does not bring its pair back; the
pair of cluster 2 is made after the last merge into it. -/
theorem areIncompatible_self_clusterRun_retired :
    let doc := ofTexts ["Joe", "he", "Ann", "she"]
    let steps := [.merge 0 1, .mark 0 1, .merge 2 0, .mark 0 2, .merge 0 3]
    (∀ a b, .mark a b ∈ steps → doc.Predicts a ∧ doc.Predicts b) ∧
      doc.initializeClusters.MarkedWithin steps 2 ∧
      ¬ doc.initializeClusters.MarkedWithin steps 0 := by
  intro doc steps
  have predicted : ∀ a b, .mark a b ∈ steps → doc.Predicts a ∧ doc.Predicts b := by
    intro a b mem
    simp only [steps, List.mem_cons, ClusterStep.mark.injEq, List.not_mem_nil, or_false,
      reduceCtorEq, false_or] at mem
    rcases mem with ⟨rfl, rfl⟩ | ⟨rfl, rfl⟩ <;> decide
  have unjudged : ∀ c, doc.areIncompatible c c = false :=
    fun c => (unjudged_ofTexts _).areIncompatible_eq c c
  have iff := fun c => areIncompatible_self_clusterRun_iff doc steps predicted c
  simp only [unjudged, Bool.false_eq_true, false_and, or_false] at iff
  exact ⟨predicted, (iff 2).mp (by decide +kernel), mt (iff 0).mpr (by decide +kernel)⟩

/-- Two mentions of one cluster are marked, and the cluster is incompatible with itself. -/
theorem areIncompatible_self_marked_together :
    let doc := ofTexts ["Joe", "he"]
    doc.Predicts 0 ∧ doc.Predicts 1 ∧
      (doc.initializeClusters.clusterRun [.merge 0 1, .mark 0 1]).areIncompatible 0 0 = true := by
  decide +kernel

end Document

end Discourse
