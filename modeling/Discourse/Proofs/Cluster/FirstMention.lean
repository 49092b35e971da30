import Discourse.Proofs.Mention.DocumentOrder
import Discourse.Proofs.Mention.Identity
import Discourse.Proofs.Preparation.Lasting
/-!
# The first mention of a cluster

A cluster has its members in the order of their ids, and its first mention is the one with the
smallest id.  Two mentions can always be brought into one cluster, so the first mention of every
cluster is the earliest in the document exactly if ids follow the order of the document
(`firstMentions_earliest_iff`).

Ids are given out in the order in which the spans are listed, and a twin has the id of its gold
mention instead.  So the ids follow the order of the document where the spans are listed in it and no
gold mentions are given.  Detection lists the named entities of a sentence before its other phrases,
and a pronoun in front of a name has the larger id (`firstMention_of_pronoun_before_name`).
-/

namespace Discourse

/-! ## Keys in their order -/

namespace KeySet

variable {κ : Type} [DecidableEq κ] [KeyOrder κ]

/-- The keys stand in their order. -/
def Ascends (s : KeySet κ) : Prop := s.toList.Pairwise fun a b => KeyOrder.before a b = true

omit [DecidableEq κ] in
theorem pairwise_insertIn {k : κ} {ks : List κ}
    (ascends : ks.Pairwise fun a b => KeyOrder.before a b = true) (new : k ∉ ks) :
    (insertIn k ks).Pairwise fun a b => KeyOrder.before a b = true := by
  induction ks with
  | nil => exact List.pairwise_singleton _ k
  | cons key rest ih =>
    obtain ⟨below, ascends'⟩ := List.pairwise_cons.mp ascends
    obtain ⟨ne, new⟩ := not_or.mp (mt List.mem_cons.mpr new)
    rw [insertIn]
    split
    next lt =>
      refine List.pairwise_cons.mpr ⟨fun k' mem => ?_, ascends⟩
      rcases List.mem_cons.mp mem with rfl | mem
      · exact lt
      · exact KeyOrder.trans lt (below k' mem)
    next notBefore =>
      have lt : KeyOrder.before key k = true :=
        ((KeyOrder.total k key).resolve_left notBefore).resolve_left ne
      refine List.pairwise_cons.mpr ⟨fun k' mem => ?_, ih ascends' new⟩
      rcases List.mem_cons.mp ((insertIn_perm k rest).mem_iff.mp mem) with rfl | mem
      · exact lt
      · exact below k' mem

omit [DecidableEq κ] in
theorem ascends_empty : ({} : KeySet κ).Ascends := List.Pairwise.nil

theorem Ascends.insert {s : KeySet κ} (h : s.Ascends) (k : κ) : (s.insert k).Ascends := by
  rw [KeySet.insert]
  split
  next => exact h
  next new => exact pairwise_insertIn h fun mem => new ((contains_iff s k).mpr mem)

theorem Ascends.insertAll {s : KeySet κ} (h : s.Ascends) (ks : List κ) : (s.insertAll ks).Ascends :=
  List.foldlRecOn (motive := Ascends) ks KeySet.insert h fun _ h k _ => h.insert k

theorem ascends_ofList (ks : List κ) : (ofList ks).Ascends := ascends_empty.insertAll ks

/-- The first of some numbers in their order is the smallest. -/
theorem Ascends.exists_first? {s : KeySet Nat} (h : s.Ascends) (nonempty : s.toList ≠ []) :
    ∃ first ∈ s.toList, s.first? = some first ∧ ∀ k ∈ s.toList, k ≠ first → first < k := by
  obtain ⟨ks, once⟩ := s
  cases ks with
  | nil => exact absurd rfl nonempty
  | cons first rest =>
    refine ⟨first, List.mem_cons_self, rfl, fun k mem ne => ?_⟩
    have mem : k ∈ rest := (List.mem_cons.mp mem).resolve_left ne
    exact Nat.blt_eq.mp ((List.pairwise_cons.mp h).1 k mem)

end KeySet

namespace Document

variable {doc d : Document}

/-- Every cluster has its members in the order of their ids. -/
def ClustersAscend (d : Document) : Prop :=
  ∀ c members, d.clusters.find? c = some members → members.Ascends

theorem clustersAscend_initializeClusters (doc : Document) :
    doc.initializeClusters.ClustersAscend := by
  intro c members found
  rw [initializeClusters_eq] at found
  simp only [Table.find?_foldl_insert fun id : MentionId => KeySet.ofList [id]] at found
  split at found
  next =>
    cases found
    exact KeySet.ascends_ofList _
  next => cases found

theorem ClustersAscend.moveMembers (h : d.ClustersAscend) (winner loser : ClusterId) :
    (d.moveMembers winner loser).ClustersAscend := by
  have emptied : ∀ c members, (d.clusters.modify loser fun _ => {}).find? c = some members →
      members.Ascends := by
    intro c members found
    rw [Table.find?_modify] at found
    split at found
    next =>
      obtain ⟨_, -, rfl⟩ := Option.map_eq_some_iff.mp found
      exact KeySet.ascends_empty
    next => exact h c members found
  intro c members found
  rw [Document.moveMembers, Table.find?_insert] at found
  split at found
  next =>
    cases found
    refine KeySet.Ascends.insertAll ?_ _
    cases known : (d.clusters.modify loser fun _ => {}).find? winner with
    | none => exact KeySet.ascends_empty
    | some members => exact emptied winner members known
  next => exact emptied c members found

theorem ClustersAscend.step (h : d.ClustersAscend) (s : ClusterStep) :
    (d.clusterStep s).ClustersAscend := by
  cases s with
  | merge winner loser =>
    rw [clusterStep]
    by_cases ne : winner = loser
    · rw [ne, mergeClusters_self]
      exact h
    · rw [mergeClusters_of_ne d ne]
      exact ClustersAscend.moveMembers h winner loser
  | mark a b => exact h
  | ask a b =>
    obtain ⟨acronyms, eq⟩ := d.clusterAcronym_eq a b
    rw [clusterStep, eq]
    exact h

theorem ClustersAscend.run (h : d.ClustersAscend) (steps : List ClusterStep) :
    (d.clusterRun steps).ClustersAscend :=
  List.foldlRecOn (motive := ClustersAscend) steps clusterStep h fun _ h s _ => h.step s

/-! ## The order of the document -/

/-- Whether one mention comes before another. -/
def precedes (d : Document) (a b : MentionId) : Bool :=
  match d.mention? a, d.mention? b with
  | some m, some m' => m.isBefore m'
  | _, _ => false

/-- Ids are given out in the order of the document. -/
def IdsFollowOrder (d : Document) : Prop :=
  ∀ a ∈ d.mentions.keys, ∀ b ∈ d.mentions.keys, a < b → d.precedes a b = true

instance (d : Document) : Decidable d.IdsFollowOrder :=
  inferInstanceAs (Decidable (∀ _ ∈ _, _))

/-- The first mention of every cluster that has one comes before all other members. -/
def FirstMentionsEarliest (d : Document) : Prop :=
  ∀ c members, d.clusters.find? c = some members → members.toList ≠ [] →
    ∃ first ∈ members.toList, members.first? = some first ∧
      ∀ id ∈ members.toList, id ≠ first → d.precedes first id = true

theorem precedes_of_keepsMentions (same : KeepsMentions Mention.core doc d) (a b : MentionId) :
    d.precedes a b = doc.precedes a b := by
  have order : ∀ d : Document, d.precedes a b =
      match (d.mention? a).map Mention.core, (d.mention? b).map Mention.core with
      | some m, some m' => m.isBefore m'
      | _, _ => false := by
    intro d
    rw [precedes]
    cases d.mention? a <;> cases d.mention? b <;> rfl
  rw [order, order, same a, same b]

theorem known_of_precedes {a b : MentionId} (before : d.precedes a b = true) :
    a ∈ d.mentions.keys ∧ b ∈ d.mentions.keys := by
  rw [precedes] at before
  split at before
  next foundA foundB =>
    rw [Table.mem_keys_iff, Table.mem_keys_iff]
    exact ⟨Option.isSome_of_eq_some foundA, Option.isSome_of_eq_some foundB⟩
  next => cases before

/-- A run of clusters writes nothing to the mentions but their clusters. -/
theorem keepsCore_clusterRun (d : Document) (steps : List ClusterStep) :
    KeepsMentions Mention.core d (d.clusterRun steps) := by
  refine .foldl (fun d s => ?_) d steps
  cases s with
  | merge winner loser =>
    intro id
    rw [clusterStep, mention?_mergeClusters]
    split
    next => rw [Option.map_map]; rfl
    next => rfl
  | mark a b => exact .of_eq rfl
  | ask a b =>
    obtain ⟨acronyms, eq⟩ := d.clusterAcronym_eq a b
    rw [clusterStep, eq]
    exact .of_eq rfl

/-! ## From ids to first mentions -/

/-- Every predicted mention is listed and in a cluster of its own. -/
structure Started (d : Document) : Prop where
  placed : Placed d d fun id => id
  ascend : d.ClustersAscend
  listed : ∀ id, id ∈ d.predicted.flatten ↔ id ∈ d.mentions.keys

namespace Started

/-- The first mention of a cluster is the one with the smallest id. -/
theorem exists_first? (h : d.Started) {steps : List ClusterStep} {c : ClusterId}
    {members : KeySet MentionId} (found : (d.clusterRun steps).clusters.find? c = some members)
    (nonempty : members.toList ≠ []) :
    ∃ first ∈ members.toList, members.first? = some first ∧
      ∀ id ∈ members.toList, id ≠ first → first < id :=
  (h.ascend.run steps c members found).exists_first? nonempty

theorem firstMentionsEarliest (h : d.Started) (ordered : d.IdsFollowOrder)
    (steps : List ClusterStep) : (d.clusterRun steps).FirstMentionsEarliest := by
  intro c members found nonempty
  have known : ∀ id ∈ members.toList, id ∈ d.mentions.keys := by
    intro id mem
    have member := (mem_membersOf_iff _ c id).mpr ⟨members, found, mem⟩
    exact (h.listed id).mp (((h.placed.run steps).members c id).mp member).1
  obtain ⟨first, mem, isFirst, least⟩ := h.exists_first? found nonempty
  refine ⟨first, mem, isFirst, fun id mem' ne => ?_⟩
  rw [precedes_of_keepsMentions (d.keepsCore_clusterRun steps)]
  exact ordered first (known first mem) id (known id mem') (least id mem' ne)

/-- Of two mentions brought into one cluster the one with the smaller id is the first. -/
theorem exists_merged (h : d.Started) {a b : MentionId} (knownA : a ∈ d.mentions.keys)
    (knownB : b ∈ d.mentions.keys) (lt : a < b) :
    ∃ members, (d.clusterRun [.merge a b]).clusters.find? a = some members ∧
      b ∈ members.toList ∧ members.first? = some a := by
  have apart : a ≠ b := Nat.ne_of_lt lt
  have merged := h.placed.run [.merge a b]
  have inA : a ∈ (d.clusterRun [.merge a b]).membersOf a :=
    (merged.members a a).mpr ⟨(h.listed a).mpr knownA, if_neg apart⟩
  have inB : b ∈ (d.clusterRun [.merge a b]).membersOf a :=
    (merged.members a b).mpr ⟨(h.listed b).mpr knownB, if_pos rfl⟩
  obtain ⟨members, found, memA⟩ := (mem_membersOf_iff _ a a).mp inA
  obtain ⟨members', found', memB⟩ := (mem_membersOf_iff _ a b).mp inB
  cases found.symm.trans found'
  obtain ⟨first, memFirst, isFirst, below⟩ := h.exists_first? found (List.ne_nil_of_mem memA)
  -- nobody but `a` and `b` is in the cluster
  have member := (mem_membersOf_iff _ a first).mpr ⟨members, found, memFirst⟩
  have place := ((merged.members a first).mp member).2
  obtain ⟨-, same | ⟨-, same⟩⟩ := (ClusterStep.rename_merge_eq_iff apart).mp place
  · have same : first = a := same
    exact ⟨members, found, memB, same ▸ isFirst⟩
  · have same : first = b := same
    have lower : first < a := below a memA (same ▸ apart)
    exact absurd (Nat.lt_trans lt (same ▸ lower)) (Nat.lt_irrefl a)

/-- Two mentions brought into one cluster show whether their ids follow the order of the document. -/
theorem precedes_of_merge (h : d.Started) {a b : MentionId} (knownA : a ∈ d.mentions.keys)
    (knownB : b ∈ d.mentions.keys) (lt : a < b)
    (earliest : (d.clusterRun [.merge a b]).FirstMentionsEarliest) : d.precedes a b = true := by
  obtain ⟨members, found, memB, isFirst⟩ := h.exists_merged knownA knownB lt
  obtain ⟨first, -, isFirst', before⟩ := earliest a members found (List.ne_nil_of_mem memB)
  cases isFirst.symm.trans isFirst'
  rw [← precedes_of_keepsMentions (d.keepsCore_clusterRun [.merge a b])]
  exact before b memB (Nat.ne_of_gt lt)

end Started

/-! ## After a preparation -/

variable {lex : Lexicon} {settings : PreparationSettings} {raw : RawMentions}
  {counts : PreparationSummary}

theorem started_of_prepare (fresh : doc.Fresh)
    (ok : doc.prepare lex settings raw = (d, .ok counts)) : d.Started := by
  obtain ⟨given, taken, count, -, taking, rfl⟩ := exists_taken_of_prepare ok
  obtain ⟨gold, built, filled, takenUp⟩ := initializeMentions_cases fresh taking
  have register := sameRegister_analysed taken lex settings
  rw [analysed] at register ⊢
  generalize (taken.laidOut settings).processDiscourse lex = x at register ⊢
  obtain ⟨goldClusters, gathered⟩ := x.initializeClusters.gatherGoldClusters_eq
  have cores := x.initializeClusters.gatherGoldClusters.1.keepsMentions_assignPlaces
    (g := Mention.cluster?) fun _ _ => rfl
  obtain ⟨mentions, assigned⟩ := x.initializeClusters.gatherGoldClusters.1.assignPlaces_eq
  have predicted : x.initializeClusters.gatherGoldClusters.1.assignPlaces.predicted =
      x.predicted := by
    rw [assigned, gathered, initializeClusters_eq]
  have clusters : x.initializeClusters.gatherGoldClusters.1.assignPlaces.clusters =
      x.initializeClusters.clusters := by
    rw [assigned, gathered]
  have started := x.placed_initializeClusters
  refine ⟨⟨fun c id => ?_, fun id listed m found => ?_, rfl⟩, fun c members found => ?_, fun id => ?_⟩
  · rw [predicted, membersOf, clusters]
    exact started.members c id
  · rw [predicted] at listed
    obtain ⟨m', found', same⟩ := cores.exists_mention? found
    have found' : x.initializeClusters.mention? id = some m' := by
      rw [gathered] at found'
      exact found'
    rw [← same]
    exact started.names id listed m' found'
  · rw [clusters] at found
    exact x.clustersAscend_initializeClusters c members found
  · exact register.listed_iff takenUp.identified.listed id

/-- Whether one place comes strictly before another: further to the left, or the longer one. -/
def SiteBefore (a b : Nat × Nat × Nat) : Prop :=
  a.1 < b.1 ∨ a.1 = b.1 ∧ (a.2.1 < b.2.1 ∨ a.2.1 = b.2.1 ∧ b.2.2 < a.2.2)

instance (a b : Nat × Nat × Nat) : Decidable (SiteBefore a b) :=
  inferInstanceAs (Decidable (_ ∨ _))

theorem isBefore_of_site {m m' : Mention} (before : SiteBefore m.site m'.site) :
    m.isBefore m' = true := by
  rw [Mention.isBefore_iff]
  obtain sentence | ⟨sentence, start | ⟨start, stop⟩⟩ := before
  · exact .inl sentence
  · exact .inr ⟨sentence, .inl start⟩
  · exact .inr ⟨sentence, .inr ⟨start, .inl stop⟩⟩

namespace TakenUp

variable {given : RawMentions} {count : Nat} {gold built filled : List Mention}

/-- Without gold mentions every mention has the id with which it was built. -/
theorem map_id_of_noGold (h : TakenUp doc d given count gold built filled)
    (noGold : given.gold? = none) :
    filled.map Mention.id = List.range' 0 filled.length := by
  have noGold : gold = [] := by
    have length := h.length_gold
    rw [noGold] at length
    exact List.eq_nil_of_length_eq_zero (length.trans (by simp [spansWithin, spansOf]))
  have lengths : filled.length = built.length := by
    simpa using congrArg List.length h.matching.sites
  have unclaimed : ∀ m ∈ filled, m.hasTwin = false := by
    intro m mem
    refine Bool.eq_false_iff.mpr fun twin => ?_
    have lt := (h.id_lt_iff mem).mpr twin
    rw [noGold] at lt
    exact Nat.not_lt_zero _ lt
  have kept : ∀ ms : List Mention, (∀ m ∈ ms, m.hasTwin = false) →
      unclaiming ms = ms.map Mention.id := by
    intro ms none
    rw [unclaiming, List.filter_eq_self.mpr fun m mem => by simp [none m mem]]
  have sub := h.matching.unclaimed
  rw [kept filled unclaimed, kept built h.builtNumbered.unclaimed] at sub
  rw [sub.eq_of_length (by rw [List.length_map, List.length_map, lengths]), h.builtNumbered.ids,
    noGold, lengths]
  rfl

/-- Without gold mentions the ids are the places of the spans in their list. -/
theorem map_site_mention? (h : TakenUp doc d given count gold built filled)
    (noGold : given.gold? = none) (id : MentionId) :
    (d.mention? id).map Mention.site =
      ((spansWithin doc.sentences given.predicted).map PlacedSpan.site)[id]? := by
  have number : ∀ (i : Nat) (m : Mention), filled[i]? = some m → m.id = i := by
    intro i m at_i
    have lt : i < filled.length := (List.getElem?_eq_some_iff.mp at_i).1
    have ids := congrArg (fun ids : List MentionId => ids[i]?) (h.map_id_of_noGold noGold)
    simp only [List.getElem?_map, at_i, Option.map_some, List.getElem?_range' lt] at ids
    simpa using ids
  rw [← h.builtNumbered.map_site, ← h.matching.sites, List.getElem?_map, mention?]
  congr 1
  refine Option.ext fun m => ?_
  rw [h.find?_mentions_iff]
  constructor
  · rintro ⟨mem, rfl⟩
    obtain ⟨i, at_i⟩ := List.mem_iff_getElem?.mp mem
    rw [number i m at_i]
    exact at_i
  · intro at_id
    exact ⟨List.mem_of_getElem? at_id, number id m at_id⟩

end TakenUp

theorem gold?_completeMentions {given : RawMentions}
    (completed : doc.completeMentions settings raw = .ok given) : given.gold? = raw.gold? := by
  rw [completeMentions] at completed
  split at completed
  next =>
    obtain ⟨predicted, -, rfl⟩ := map_eq_ok_iff.mp completed
    rfl
  next =>
    cases completed
    rfl

/-- Where spans are listed in the order of the document, and no gold mention lends its id, ids follow
that order. -/
theorem idsFollowOrder_of_sites (fresh : doc.Fresh)
    (ok : doc.prepare lex settings raw = (d, .ok counts)) (noGold : raw.gold? = none)
    {given : RawMentions} (completed : doc.completeMentions settings raw = .ok given)
    (inOrder : ((spansWithin doc.sentences given.predicted).map PlacedSpan.site).Pairwise
      SiteBefore) : d.IdsFollowOrder := by
  obtain ⟨given', taken, count, completed', taking, rfl⟩ := exists_taken_of_prepare ok
  cases completed.symm.trans completed'
  obtain ⟨gold, built, filled, takenUp⟩ := initializeMentions_cases fresh taking
  have noGold : given.gold? = none := (gold?_completeMentions completed).trans noGold
  have cores := (sameRegister_analysed taken lex settings).cores
  have known : ∀ id ∈ (taken.analysed lex settings).gatherGoldClusters.1.assignPlaces.mentions.keys,
      ∃ m, taken.mention? id = some m := by
    intro id key
    rw [Table.mem_keys_iff] at key
    exact Option.isSome_iff_exists.mp ((cores.isSome_eq id).symm.trans key)
  intro a knownA b knownB lt
  obtain ⟨m, foundA⟩ := known a knownA
  obtain ⟨m', foundB⟩ := known b knownB
  have siteA := takenUp.map_site_mention? noGold a
  have siteB := takenUp.map_site_mention? noGold b
  rw [foundA, Option.map_some] at siteA
  rw [foundB, Option.map_some] at siteB
  have before : SiteBefore m.site m'.site := by
    obtain ⟨ltA, eqA⟩ := List.getElem?_eq_some_iff.mp siteA.symm
    obtain ⟨ltB, eqB⟩ := List.getElem?_eq_some_iff.mp siteB.symm
    rw [← eqA, ← eqB]
    exact List.pairwise_iff_getElem.mp inOrder a b ltA ltB lt
  rw [precedes_of_keepsMentions cores, precedes, foundA, foundB]
  exact isBefore_of_site before

/-- After a preparation the first mention of a cluster is the one with the smallest id, whatever is
merged.  It is the earliest mention of every cluster exactly if ids follow the order of the document,
and they do where the spans are listed in that order and no gold mentions are given. -/
theorem firstMentions_earliest_iff (fresh : doc.Fresh)
    (ok : doc.prepare lex settings raw = (d, .ok counts)) :
    (∀ steps c members, (d.clusterRun steps).clusters.find? c = some members →
      members.toList ≠ [] → ∃ first ∈ members.toList, members.first? = some first ∧
        ∀ id ∈ members.toList, id ≠ first → first < id) ∧
    ((∀ steps, (d.clusterRun steps).FirstMentionsEarliest) ↔ d.IdsFollowOrder) ∧
    ∀ given, doc.completeMentions settings raw = .ok given → raw.gold? = none →
      ((spansWithin doc.sentences given.predicted).map PlacedSpan.site).Pairwise SiteBefore →
      d.IdsFollowOrder := by
  have started := started_of_prepare fresh ok
  refine ⟨fun steps c members found nonempty => ?_, ⟨?_, ?_⟩, ?_⟩
  · exact started.exists_first? found nonempty
  · exact fun earliest a knownA b knownB lt => started.precedes_of_merge knownA knownB lt (earliest _)
  · exact started.firstMentionsEarliest
  · intro given completed noGold inOrder
    exact idsFollowOrder_of_sites fresh ok noGold completed inOrder

/-- A pronoun and a name behind it, listed in this order. -/
theorem firstMentions_earliest_iff_listed :
    let lex : Lexicon := ⟨{}, {}, {}, {}, {}⟩
    let doc := ofSentences "d" [
      { tokens := [.ofWord "he" "PRP", .ofWord "saw" "VBD", .ofWord "Joe" "NNP"] }]
    let raw : RawMentions :=
      { predicted := [[{ start := 0, stop := 1 }, { start := 2, stop := 3 }]], gold? := none }
    doc.Fresh ∧ doc.completeMentions {} raw = .ok raw ∧
      ((spansWithin doc.sentences raw.predicted).map PlacedSpan.site).Pairwise SiteBefore ∧
      ∃ d counts, doc.prepare lex {} raw = (d, .ok counts) ∧ d.precedes 0 1 = true ∧
        ∀ steps, (d.clusterRun steps).FirstMentionsEarliest := by
  intro lex doc raw
  have fresh : doc.Fresh := fresh_ofSentences _ _
  have completed : doc.completeMentions {} raw = .ok raw := by decide +kernel
  have inOrder : ((spansWithin doc.sentences raw.predicted).map PlacedSpan.site).Pairwise
      SiteBefore := by decide +kernel
  have none : (doc.initializeMentions lex .strict raw).2 = .ok 0 := by decide +kernel
  have noGold : (doc.initializeMentions lex .strict raw).1.gold? = Option.none := by decide +kernel
  have first : (doc.initializeMentions lex .strict raw).1.precedes 0 1 = true := by decide +kernel
  generalize taking : doc.initializeMentions lex .strict raw = taken at none noGold first
  obtain ⟨taken, outcome⟩ := taken
  cases none
  obtain ⟨counts, ok⟩ := exists_prepare_of_taken completed taking (by decide +kernel) noGold
  have cores := (sameRegister_analysed taken lex {}).cores
  obtain ⟨-, iff, ordered⟩ := firstMentions_earliest_iff fresh ok
  refine ⟨fresh, completed, inOrder, _, counts, ok, ?_, ?_⟩
  · rw [precedes_of_keepsMentions cores]
    exact first
  · exact iff.mpr (ordered raw completed rfl inOrder)

/-- Detection lists a name before the pronoun in front of it, which then is not the first mention of
the cluster of the two. -/
theorem firstMention_of_pronoun_before_name :
    let lex : Lexicon := ⟨{}, {}, {}, {}, {}⟩
    let doc := ofSentences "d" [
      { tokens := [.ofWord "he" "PRP", .ofWord "saw" "VBD",
          { Token.ofWord "Joe" "NNP" with ner := "PERSON" }]
        chunkTags := ["B-NP", "O", "B-NP"] }]
    let raw : RawMentions := { predicted := [[]], gold? := none }
    doc.Fresh ∧ ∃ d counts, doc.prepare lex {} raw = (d, .ok counts) ∧ d.precedes 1 0 = true ∧
      (∃ members, (d.clusterRun [.merge 0 1]).clusters.find? 0 = some members ∧
        1 ∈ members.toList ∧ members.first? = some 0) ∧
      ¬ (d.clusterRun [.merge 0 1]).FirstMentionsEarliest := by
  intro lex doc raw
  have fresh : doc.Fresh := fresh_ofSentences _ _
  let named : MentionSpan := { start := 2, stop := 3, head? := some 2 }
  let spoken : MentionSpan := { start := 0, stop := 1, head? := some 0 }
  let given : RawMentions := { predicted := [[named, spoken]], gold? := none }
  have completed : doc.completeMentions {} raw = .ok given := by decide +kernel
  have none : (doc.initializeMentions lex .strict given).2 = .ok 0 := by decide +kernel
  have noGold : (doc.initializeMentions lex .strict given).1.gold? = Option.none := by
    decide +kernel
  have backwards : (doc.initializeMentions lex .strict given).1.precedes 1 0 = true ∧
      (doc.initializeMentions lex .strict given).1.precedes 0 1 = false := by
    decide +kernel
  generalize taking : doc.initializeMentions lex .strict given = taken at none noGold backwards
  obtain ⟨taken, outcome⟩ := taken
  cases none
  obtain ⟨counts, ok⟩ := exists_prepare_of_taken completed taking (by decide +kernel) noGold
  have order := precedes_of_keepsMentions (sameRegister_analysed taken lex {}).cores
  have started := started_of_prepare fresh ok
  have before := (order 1 0).trans backwards.1
  obtain ⟨known1, known0⟩ := known_of_precedes before
  refine ⟨fresh, _, counts, ok, before, ?_, fun earliest => ?_⟩
  · exact started.exists_merged known0 known1 Nat.zero_lt_one
  · have precedes := started.precedes_of_merge known0 known1 Nat.zero_lt_one earliest
    rw [order 0 1, backwards.2] at precedes
    cases precedes

end Document

end Discourse
