import Discourse.Proofs.Cluster.Gold
import Discourse.Proofs.GoldLink.Success
import Discourse.Proofs.Mention.Antecedent
import Discourse.Proofs.Mention.Identity
/-!
# Three views of gold coreference

Gold data that name clusters only are read three times: clusters are gathered, two mentions are
compared by the clusters they name, and links follow from antecedents that were derived from the
clusters.  All three say the same (`Document.ViewsAgree`).  For the links this rests on one fact:
antecedents connect exactly the mentions of one cluster (`TakenUp.goldConnected_iff`), since each
mention that is not the first of its cluster has an antecedent in it, which comes before it.
-/

namespace Discourse

open Relation

namespace Document

theorem GoldBefore.mem {doc : Document} {a b : MentionId} (before : doc.GoldBefore a b) :
    a ∈ doc.goldRows.flatten ∧ b ∈ doc.goldRows.flatten := by
  have listed : ∀ place id, idAt? doc.goldRows place = some id → id ∈ doc.goldRows.flatten := by
    intro place id at_place
    obtain ⟨row, row_i, at_j⟩ := Option.bind_eq_some_iff.mp at_place
    exact List.mem_flatten.mpr ⟨row, List.mem_of_getElem? row_i, List.mem_of_getElem? at_j⟩
  obtain ⟨p, q, at_p, at_q, -⟩ := before
  exact ⟨listed p a at_p, listed q b at_q⟩

theorem goldClusterOf?_of_extractGoldLinks {doc linked : Document}
    {links : List (MentionId × MentionId)} (ok : doc.extractGoldLinks = .ok (links, linked))
    (id : MentionId) : linked.goldClusterOf? id = doc.goldClusterOf? id := by
  unfold extractGoldLinks at ok
  split at ok
  next => cases ok; rfl
  next =>
    split at ok
    next => cases ok; rfl
    next =>
      obtain ⟨st, -, ok⟩ := bind_eq_ok_iff.mp ok
      cases ok
      -- only antecedents are written back
      refine List.foldlRecOn (motive := fun t : Table MentionId Mention =>
        (t.find? id).bind Mention.goldCluster? = doc.goldClusterOf? id) _ _ rfl ?_
      intro t same entry _
      rw [Table.find?_modify, ← same]
      split
      next eq =>
        rw [eq]
        cases t.find? entry.1 <;> rfl
      next => rfl

/-- The clusters gathered, the comparison of two mentions and the links say the same, and the
clusters are a partition of the gold mentions. -/
structure ViewsAgree (doc clustered : Document) (links : List (MentionId × MentionId)) : Prop where
  gathered : ∀ a b, doc.GoldBefore a b → (doc.isCoreferent a b = true ↔
    ∃ cluster, a ∈ clustered.goldMembersOf cluster ∧ b ∈ clustered.goldMembersOf cluster)
  linked : ∀ a b, doc.GoldBefore a b → (doc.isCoreferent a b = true ↔ (b, a) ∈ links)
  backward : ∀ a b, (b, a) ∈ links → doc.GoldBefore a b
  covered : ∀ id, id ∈ doc.goldRows.flatten ↔ ∃ cluster, id ∈ clustered.goldMembersOf cluster
  single : ∀ id cluster cluster', id ∈ clustered.goldMembersOf cluster →
    id ∈ clustered.goldMembersOf cluster' → cluster = cluster'
  inhabited : ∀ cluster members, clustered.goldClusters.find? cluster = some members →
    members.toList ≠ []

namespace TakenUp

variable {doc d : Document} {raw : RawMentions} {count : Nat} {gold built filled : List Mention}

theorem ascending (h : TakenUp doc d raw count gold built filled) :
    (gold.map Mention.id).Pairwise (· < ·) := by
  rw [h.goldNumbered.ids]
  exact List.pairwise_lt_range'

/-- The antecedent of a gold mention is the last one of its cluster before it. -/
theorem refersTo_iff (h : TakenUp doc d raw count gold built filled)
    (bare : ∀ g ∈ gold, g.antecedent? = none) {before after : List Mention} {g : Mention}
    (split : gold = before ++ g :: after) (y : MentionId) :
    d.RefersTo g.id y ↔
      ∃ cluster, g.goldCluster? = some cluster ∧ lastIn cluster before = some y := by
  have isGold : g ∈ gold := by simp [split]
  have ascending := h.ascending
  rw [RefersTo, h.find?_goldMentions_of_mem isGold]
  subst split
  rw [find?_withAntecedents ascending bare]
  show (g.goldCluster?.bind fun c => lastIn c before) = some y ↔ _
  exact Option.bind_eq_some_iff

theorem lt_of_split (h : TakenUp doc d raw count gold built filled) {before after : List Mention}
    {g g' : Mention} (split : gold = before ++ g :: after) :
    g' ∈ before ↔ g' ∈ gold ∧ g'.id < g.id := by
  have ascending := h.ascending
  rw [split, List.map_append, List.map_cons] at ascending
  obtain ⟨-, later, earlier⟩ := List.pairwise_append.mp ascending
  obtain ⟨later, -⟩ := List.pairwise_cons.mp later
  constructor
  · intro mem
    refine ⟨by simp [split, mem], ?_⟩
    exact earlier g'.id (List.mem_map_of_mem mem) g.id List.mem_cons_self
  · rintro ⟨isGold, lt⟩
    rw [split, List.mem_append, List.mem_cons] at isGold
    rcases isGold with mem | rfl | mem
    · exact mem
    · exact absurd lt (Nat.lt_irrefl g'.id)
    · exact absurd lt (Nat.lt_asymm (later g'.id (List.mem_map_of_mem mem)))

theorem refersTo_cases (h : TakenUp doc d raw count gold built filled)
    (bare : ∀ g ∈ gold, g.antecedent? = none) {x y : MentionId} (step : d.RefersTo x y) :
    y < x ∧ y ∈ d.goldRows.flatten ∧ d.goldClusterOf? x = d.goldClusterOf? y := by
  obtain ⟨m, found, -⟩ := Option.bind_eq_some_iff.mp step
  obtain ⟨g, isGold, rfl⟩ := h.exists_mem_of_find?_goldMentions found
  obtain ⟨before, after, split⟩ := List.append_of_mem isGold
  obtain ⟨cluster, named, last⟩ := (h.refersTo_iff bare split y).mp step
  obtain ⟨g', mem, rfl, named'⟩ := exists_mem_of_lastIn last
  obtain ⟨isGold', lt⟩ := (h.lt_of_split split).mp mem
  refine ⟨lt, (h.mem_goldRows_iff g'.id).mpr ⟨g', isGold', rfl⟩, ?_⟩
  rw [h.goldClusterOf?_of_mem isGold, h.goldClusterOf?_of_mem isGold', named, named']

/-- A mention that is not the first of its cluster has an antecedent. -/
theorem exists_refersTo (h : TakenUp doc d raw count gold built filled)
    (bare : ∀ g ∈ gold, g.antecedent? = none) {g g' : Mention} (isGold : g ∈ gold)
    (isGold' : g' ∈ gold) (lt : g'.id < g.id) {cluster : Nat}
    (named : g.goldCluster? = some cluster) (named' : g'.goldCluster? = some cluster) :
    ∃ y, d.RefersTo g.id y := by
  obtain ⟨before, after, split⟩ := List.append_of_mem isGold
  obtain ⟨y, last⟩ := exists_lastIn ((h.lt_of_split split).mpr ⟨isGold', lt⟩) named'
  exact ⟨y, (h.refersTo_iff bare split y).mpr ⟨cluster, named, last⟩⟩

theorem exists_mem_of_goldClusterOf? (h : TakenUp doc d raw count gold built filled)
    {x : MentionId} {cluster : Nat} (named : d.goldClusterOf? x = some cluster) :
    ∃ g ∈ gold, g.id = x ∧ g.goldCluster? = some cluster := by
  obtain ⟨m, found, -⟩ := Option.bind_eq_some_iff.mp named
  obtain ⟨g, isGold, rfl⟩ := h.exists_mem_of_find?_goldMentions found
  exact ⟨g, isGold, rfl, (h.goldClusterOf?_of_mem isGold).symm.trans named⟩

theorem goldConnected_of_cluster (h : TakenUp doc d raw count gold built filled)
    (bare : ∀ g ∈ gold, g.antecedent? = none) {cluster : Nat} {x y : MentionId} (le : y ≤ x)
    (named : d.goldClusterOf? x = some cluster) (named' : d.goldClusterOf? y = some cluster) :
    d.GoldConnected x y := by
  induction x using Nat.strong_induction_on generalizing y with
  | _ x ih =>
    rcases Nat.eq_or_lt_of_le le with rfl | lt
    · exact .refl _
    · obtain ⟨g, isGold, rfl, inCluster⟩ := h.exists_mem_of_goldClusterOf? named
      obtain ⟨g', isGold', rfl, inCluster'⟩ := h.exists_mem_of_goldClusterOf? named'
      obtain ⟨z, step⟩ := h.exists_refersTo bare isGold isGold' lt inCluster inCluster'
      obtain ⟨earlier, -, same⟩ := h.refersTo_cases bare step
      have named_z : d.goldClusterOf? z = some cluster := same.symm.trans named
      -- both the antecedent and the other mention come before this one
      have between : d.GoldConnected z g'.id := by
        rcases Nat.le_total g'.id z with le | ge
        · exact ih z earlier le named_z named'
        · exact (ih g'.id lt ge named' named_z).symm
      exact .trans _ _ _ (.rel _ _ step) between

theorem goldClusterOf?_of_connected (h : TakenUp doc d raw count gold built filled)
    (bare : ∀ g ∈ gold, g.antecedent? = none) {x y : MentionId} (connected : d.GoldConnected x y) :
    d.goldClusterOf? x = d.goldClusterOf? y := by
  induction connected with
  | rel x y step => exact (h.refersTo_cases bare step).2.2
  | refl x => rfl
  | symm x y _ ih => exact ih.symm
  | trans x y z _ _ ih ih' => exact ih.trans ih'

/-- Antecedents connect the mentions of one cluster, and no others. -/
theorem goldConnected_iff (h : TakenUp doc d raw count gold built filled)
    (bare : ∀ g ∈ gold, g.antecedent? = none) {x y : MentionId} {cluster : Nat}
    (named : d.goldClusterOf? x = some cluster) :
    d.GoldConnected x y ↔ d.goldClusterOf? y = some cluster := by
  constructor
  · intro connected
    exact (h.goldClusterOf?_of_connected bare connected).symm.trans named
  · intro named'
    rcases Nat.le_total y x with le | ge
    · exact h.goldConnected_of_cluster bare le named named'
    · exact (h.goldConnected_of_cluster bare ge named' named).symm

theorem goldResolved (h : TakenUp doc d raw count gold built filled)
    (bare : ∀ g ∈ gold, g.antecedent? = none) : d.GoldResolved :=
  fun _ _ _ step => (h.refersTo_cases bare step).2.1

theorem goldAcyclic (h : TakenUp doc d raw count gold built filled)
    (bare : ∀ g ∈ gold, g.antecedent? = none) : d.GoldAcyclic := by
  intro x _ cycle
  have earlier : ∀ y, TransGen d.RefersTo x y → y < x := by
    intro y path
    induction path with
    | single step => exact (h.refersTo_cases bare step).1
    | tail _ step ih => exact Nat.lt_trans (h.refersTo_cases bare step).1 ih
  exact Nat.lt_irrefl x (earlier x cycle)

theorem viewsAgree (h : TakenUp doc d raw count gold built filled)
    (bare : ∀ g ∈ gold, g.antecedent? = none)
    (named : ∀ g ∈ gold, ∃ cluster, g.goldCluster? = some cluster) :
    ∃ clustered links linked, d.extractGoldClusters = (clustered, .ok ()) ∧
      clustered.extractGoldLinks = .ok (links, linked) ∧
      (∃ linked', d.extractGoldLinks = .ok (links, linked')) ∧ ViewsAgree d clustered links ∧
      ∀ a b, linked.isCoreferent a b = d.isCoreferent a b := by
  have once : d.goldRows.flatten.Nodup := by
    rw [h.flatten_goldRows]
    exact h.goldNumbered.nodup
  have inCluster : ∀ id ∈ d.goldRows.flatten, ∃ cluster, d.goldClusterOf? id = some cluster := by
    intro id mem
    obtain ⟨g, isGold, rfl⟩ := (h.mem_goldRows_iff id).mp mem
    rw [h.goldClusterOf?_of_mem isGold]
    exact named g isGold
  obtain ⟨found, gathering, gathered⟩ := extractGoldClusters_gathered inCluster
  obtain ⟨st, search⟩ := (exists_search_iff once).mpr ⟨h.goldResolved bare, h.goldAcyclic bare⟩
  obtain ⟨linked', links'⟩ := (extractGoldLinks_of_search h.goldLinks).1 st search
  -- gathering changes nothing that the search reads
  have first : { d with goldClusters := found }.goldLinks? = none := h.goldLinks
  obtain ⟨linked, links⟩ := (extractGoldLinks_of_search first).1 st search
  have kept : ∀ a b, linked.isCoreferent a b = d.isCoreferent a b := by
    intro a b
    rw [Bool.eq_iff_iff, isCoreferent_iff, isCoreferent_iff,
      goldClusterOf?_of_extractGoldLinks links a, goldClusterOf?_of_extractGoldLinks links b]
    rfl
  refine ⟨_, st.found.reverse, linked, gathering, links, ⟨linked', links'⟩, ?_, kept⟩
  constructor
  · intro a b before
    obtain ⟨mem, mem'⟩ := before.mem
    rw [isCoreferent_iff]
    refine exists_congr fun cluster => ?_
    rw [goldMembersOf, gathered.members, gathered.members, and_iff_right mem, and_iff_right mem']
  · intro a b before
    obtain ⟨cluster, inA⟩ := inCluster a before.mem.1
    rw [List.mem_reverse, mem_found_iff once search, and_iff_right before, isCoreferent_iff,
      h.goldConnected_iff bare inA, inA]
    simp
  · intro a b mem
    rw [List.mem_reverse, mem_found_iff once search] at mem
    exact mem.1
  · intro id
    simp only [goldMembersOf, gathered.members, exists_and_left]
    exact ⟨fun mem => ⟨mem, inCluster id mem⟩, And.left⟩
  · intro id cluster cluster' mem mem'
    rw [goldMembersOf, gathered.members] at mem mem'
    exact Option.some.inj (mem.2.symm.trans mem'.2)
  · exact gathered.inhabited

end TakenUp

/-- If the data name a cluster for every gold mention and no antecedents, the gold clusters and the
gold links can be read off, and agree with each other and with the comparison of two mentions. -/
theorem initializeMentions_viewsAgree {doc d : Document} (fresh : doc.Fresh) {lex : Lexicon}
    {policy : TwinPolicy} {raw : RawMentions} {count : Nat}
    (ok : doc.initializeMentions lex policy raw = (d, .ok count))
    (bare : ∀ entry ∈ spansWithin doc.sentences (raw.gold?.getD []),
      entry.2.2.antecedent? = none)
    (named : ∀ entry ∈ spansWithin doc.sentences (raw.gold?.getD []),
      entry.2.2.goldCluster?.isSome = true) :
    ∃ clustered links linked, d.extractGoldClusters = (clustered, .ok ()) ∧
      clustered.extractGoldLinks = .ok (links, linked) ∧
      (∃ linked', d.extractGoldLinks = .ok (links, linked')) ∧ ViewsAgree d clustered links ∧
      ∀ a b, linked.isCoreferent a b = d.isCoreferent a b := by
  obtain ⟨gold, built, filled, taken⟩ := initializeMentions_cases fresh ok
  have span : ∀ g ∈ gold, ∃ entry ∈ spansWithin doc.sentences (raw.gold?.getD []),
      g.origin = PlacedSpan.origin entry := by
    intro g isGold
    obtain ⟨entry, listed, within, origin⟩ := taken.goldNumbered.exists_span isGold
    exact ⟨entry, List.mem_filter.mpr ⟨listed, within⟩, origin⟩
  refine taken.viewsAgree ?_ ?_
  · intro g isGold
    obtain ⟨entry, inside, origin⟩ := span g isGold
    exact (congrArg Origin.antecedent? origin).trans (bare entry inside)
  · intro g isGold
    obtain ⟨entry, inside, origin⟩ := span g isGold
    rw [← Option.isSome_iff_exists]
    exact (congrArg (fun o => o.goldCluster?.isSome) origin).trans (named entry inside)

/-- Two clusters lie interleaved over two sentences. -/
theorem initializeMentions_viewsAgree_interleaved :
    let lex : Lexicon := ⟨{}, {}, {}, {}, {}⟩
    let s : Sentence := { tokens := [.ofWord "she" "PRP", .ofWord "him" "PRP"] }
    let doc := ofSentences "d" [s, s]
    let span := fun start cluster : Nat =>
      ({ start, stop := start + 1, goldCluster? := some cluster } : MentionSpan)
    let raw : RawMentions :=
      { predicted := [], gold? := some [[span 0 7, span 1 3], [span 0 7, span 1 3]] }
    let d := (doc.initializeMentions lex .strict raw).1
    doc.Fresh ∧ doc.initializeMentions lex .strict raw = (d, .ok 0) ∧
      d.extractGoldLinks.toOption.map Prod.fst = some [(2, 0), (3, 1)] ∧
      (∀ entry ∈ spansWithin doc.sentences (raw.gold?.getD []), entry.2.2.antecedent? = none) ∧
      (∀ entry ∈ spansWithin doc.sentences (raw.gold?.getD []),
        entry.2.2.goldCluster?.isSome = true) ∧
      ∃ clustered links linked, d.extractGoldClusters = (clustered, .ok ()) ∧
        clustered.extractGoldLinks = .ok (links, linked) ∧
        (∃ linked', d.extractGoldLinks = .ok (links, linked')) ∧ ViewsAgree d clustered links ∧
        ∀ a b, linked.isCoreferent a b = d.isCoreferent a b := by
  intro lex s doc span raw d
  have fresh : doc.Fresh := fresh_ofSentences _ _
  have zero : (doc.initializeMentions lex .strict raw).2 = .ok 0 := by decide +kernel
  have ok : doc.initializeMentions lex .strict raw = (d, .ok 0) := by rw [← zero]
  have bare : ∀ entry ∈ spansWithin doc.sentences (raw.gold?.getD []),
      entry.2.2.antecedent? = none := by decide +kernel
  have named : ∀ entry ∈ spansWithin doc.sentences (raw.gold?.getD []),
      entry.2.2.goldCluster?.isSome = true := by decide +kernel
  have links : d.extractGoldLinks.toOption.map Prod.fst = some [(2, 0), (3, 1)] := by
    decide +kernel
  exact ⟨fresh, ok, links, bare, named, initializeMentions_viewsAgree fresh ok bare named⟩

end Document

end Discourse
