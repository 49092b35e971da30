import Discourse.Proofs.Cluster.Run
import Mathlib.Data.List.Nodup
import Mathlib.Data.List.Perm.Subperm
/-!
# Clusters partition the mentions

Membership is kept twice, as the members of each cluster and as the cluster that each mention
names.  `clustersPartition_iff` says what the check of the two against each other decides: every
member names the cluster that holds it, and every mention is a member somewhere.  The check counts
instead of looking for each mention, so its soundness is a pigeonhole: as many different members as
there are mentions, all of them mentions.

`clusterRun_partition` is what every run keeps, whatever the ids in its steps are.
-/

namespace Discourse

namespace Document

theorem agreesFrom_iff (d : Document) (pairs : List (MentionId × ClusterId)) :
    ∀ met : List MentionId, d.agreesFrom met pairs = true ↔
      (pairs.map Prod.fst).Nodup ∧ (∀ p ∈ pairs, p.1 ∉ met) ∧
        ∀ p ∈ pairs, d.clusterOf? p.1 = some p.2 := by
  induction pairs with
  | nil => simp [agreesFrom]
  | cons pair rest ih =>
    intro met
    simp only [agreesFrom, Bool.and_eq_true, Bool.not_eq_true', List.contains_eq_mem,
      decide_eq_false_iff_not, beq_iff_eq, ih, List.map_cons, List.nodup_cons, List.mem_cons,
      List.mem_map, not_or, forall_eq_or_imp]
    constructor
    · rintro ⟨⟨fresh, names⟩, nodup, unmet, rest_names⟩
      refine ⟨⟨?_, nodup⟩, ⟨fresh, fun p hp => (unmet p hp).2⟩, names, rest_names⟩
      rintro ⟨p, hp, e⟩
      exact (unmet p hp).1 e
    · rintro ⟨⟨once, nodup⟩, ⟨fresh, unmet⟩, names, rest_names⟩
      exact ⟨⟨fresh, names⟩, nodup, fun p hp => ⟨fun e => once ⟨p, hp, e⟩, unmet p hp⟩, rest_names⟩

theorem mem_memberships_iff (d : Document) (id : MentionId) (c : ClusterId) :
    (id, c) ∈ d.memberships ↔ id ∈ d.membersOf c := by
  rw [mem_membersOf_iff]
  simp only [memberships, List.mem_flatMap, List.mem_map, Prod.exists, Table.mem_entries_iff,
    Prod.mk.injEq]
  constructor
  · rintro ⟨c', members, found, id', mem, rfl, rfl⟩
    exact ⟨members, found, mem⟩
  · rintro ⟨members, found, mem⟩
    exact ⟨c, members, found, id, mem, rfl, rfl⟩

/-- The ids in the memberships differ if no mention is in two clusters. -/
theorem nodup_memberships (d : Document)
    (single : ∀ c c' id, id ∈ d.membersOf c → id ∈ d.membersOf c' → c = c') :
    (d.memberships.map Prod.fst).Nodup := by
  have ids : d.memberships.map Prod.fst = d.clusters.entries.flatMap fun e => e.2.toList := by
    simp [memberships, List.map_flatMap, Function.comp_def]
  rw [ids, List.nodup_flatMap]
  refine ⟨fun e _ => e.2.nodup, List.Pairwise.imp_of_mem ?_ d.clusters.sorted⟩
  intro e f he hf lt id inE inF
  have same : e.1 = f.1 :=
    single e.1 f.1 id
      ((d.mem_membersOf_iff _ _).mpr ⟨e.2, (Table.mem_entries_iff _ _ _).mp he, inE⟩)
      ((d.mem_membersOf_iff _ _).mpr ⟨f.2, (Table.mem_entries_iff _ _ _).mp hf, inF⟩)
  rw [same, KeyOrder.irrefl] at lt
  exact Bool.noConfusion lt

theorem mem_keys_of_clusterOf? {d : Document} {id : MentionId} {c : ClusterId}
    (h : d.clusterOf? id = some c) : id ∈ d.mentions.keys := by
  obtain ⟨m, found, -⟩ := Option.bind_eq_some_iff.mp h
  exact (Table.mem_keys_iff _ _).mpr (Option.isSome_iff_exists.mpr ⟨m, found⟩)

/-- What the check decides. -/
theorem clustersPartition_iff (d : Document) :
    d.clustersPartition = true ↔
      (∀ c, ∀ id ∈ d.membersOf c, d.clusterOf? id = some c) ∧
        ∀ id ∈ d.mentions.keys, ∃ c, id ∈ d.membersOf c := by
  have size : d.mentions.size = d.mentions.keys.length := by simp [Table.size, Table.keys]
  have count : d.memberships.length = (d.memberships.map Prod.fst).length := by simp
  have some_cluster : ∀ id, id ∈ d.memberships.map Prod.fst ↔ ∃ c, id ∈ d.membersOf c := by
    simp [List.mem_map, Prod.exists, mem_memberships_iff]
  simp only [clustersPartition, Bool.and_eq_true, agreesFrom_iff, beq_iff_eq, size, count]
  constructor
  · rintro ⟨⟨nodup, -, names⟩, length⟩
    have names : ∀ c, ∀ id ∈ d.membersOf c, d.clusterOf? id = some c := fun c id mem =>
      names (id, c) ((d.mem_memberships_iff id c).mpr mem)
    refine ⟨names, fun id key => ?_⟩
    have sub : d.memberships.map Prod.fst ⊆ d.mentions.keys := fun id mem => by
      obtain ⟨c, mem⟩ := (some_cluster id).mp mem
      exact mem_keys_of_clusterOf? (names c id mem)
    -- as many different ids as there are keys, all of them keys
    have perm := (List.subperm_of_subset nodup sub).perm_of_length_le (Nat.le_of_eq length.symm)
    exact (some_cluster id).mp (perm.mem_iff.mpr key)
  · rintro ⟨names, covered⟩
    have nodup := d.nodup_memberships fun c c' id mem mem' =>
      Option.some.inj ((names c id mem).symm.trans (names c' id mem'))
    refine ⟨⟨nodup, fun p _ => List.not_mem_nil, fun p hp => ?_⟩, ?_⟩
    · exact names p.2 p.1 ((d.mem_memberships_iff p.1 p.2).mp hp)
    · refine ((List.perm_ext_iff_of_nodup nodup d.mentions.nodup_keys).mpr fun id => ?_).length_eq
      rw [some_cluster]
      refine ⟨?_, covered id⟩
      rintro ⟨c, mem⟩
      exact mem_keys_of_clusterOf? (names c id mem)

/-- After any run every predicted mention is a member of exactly one cluster, the one it names and
to which the renamings lead its id; no cluster holds anything else; and the check says so. -/
theorem clusterRun_partition (doc : Document)
    (listed : ∀ id, id ∈ doc.predicted.flatten ↔ id ∈ doc.mentions.keys)
    (steps : List ClusterStep) :
    let d := doc.initializeClusters.clusterRun steps
    d.mentions.keys = doc.mentions.keys ∧
      (∀ id ∈ doc.mentions.keys,
        (∃! c, id ∈ d.membersOf c) ∧ id ∈ d.membersOf (renamings steps id) ∧
          d.clusterOf? id = some (renamings steps id)) ∧
      (∀ c, ∀ id ∈ d.membersOf c, id ∈ doc.mentions.keys) ∧
      d.clustersPartition = true := by
  intro d
  have placed : Placed doc d (renamings steps) := doc.placed_clusterRun steps
  have home : ∀ id ∈ doc.mentions.keys, ∀ c, id ∈ d.membersOf c ↔ renamings steps id = c :=
    fun id key c => by simp [placed.members, listed, key]
  have known : ∀ c, ∀ id ∈ d.membersOf c, id ∈ doc.mentions.keys := fun c id mem =>
    (listed id).mp ((placed.members c id).mp mem).1
  have names : ∀ id ∈ doc.mentions.keys, d.clusterOf? id = some (renamings steps id) :=
    fun id key => placed.clusterOf?_eq ((listed id).mpr key) key
  refine ⟨placed.keys, fun id key => ⟨?_, (home id key _).mpr rfl, names id key⟩, known, ?_⟩
  · exact ⟨renamings steps id, (home id key _).mpr rfl, fun c mem => ((home id key c).mp mem).symm⟩
  · rw [clustersPartition_iff, placed.keys]
    refine ⟨fun c id mem => ?_, fun id key => ⟨_, (home id key _).mpr rfl⟩⟩
    rw [names id (known c id mem), (home id (known c id mem) c).mp mem]

/-- A winner that is retired, a loser that is unknown, a winner that is unknown, a cluster merged
into itself, and a mark and a question in between. -/
theorem clusterRun_partition_retired :
    let doc := ofTexts ["a", "b", "c", "d"]
    let steps := [.merge 0 2, .mark 0 3, .merge 3 0, .merge 0 1, .ask 3 0, .merge 3 3, .merge 1 8,
      .merge 9 3]
    (∀ id, id ∈ doc.predicted.flatten ↔ id ∈ doc.mentions.keys) ∧
      (doc.initializeClusters.clusterRun steps).clusterOf? 2 = some 9 ∧
      (doc.initializeClusters.clusterRun steps).clustersPartition = true := by
  intro doc steps
  have listed : ∀ id, id ∈ doc.predicted.flatten ↔ id ∈ doc.mentions.keys := fun id => by
    rw [show doc.predicted.flatten = doc.mentions.keys by decide]
  have all := clusterRun_partition doc listed steps
  exact ⟨listed, (all.2.1 2 (by decide)).2.2, all.2.2.2⟩

end Document

end Discourse
