import Discourse.Proofs.Cluster.AcronymMemo
import Discourse.Proofs.Cluster.Incompatibility
/-!
# Merges that commute

Two merges are independent if neither retires a cluster that the other names.  A merge then finds
what it rewrites where it would have been without the other one, and the order of the two does not
matter.  A cluster is renamed twice to the same effect.  A pair of the two losers is rewritten
twice, and it vanishes in both orders if the winners are one.  Of the remembered answers a no that
touches a loser is dropped, and a yes that lands on a no replaces it, but no yes is ever replaced;
so the answer for a pair is a yes if any yes lands there, whichever way it took.

`SameClusters` says what two documents agree on: the records themselves where they are tables, and
their members where they are sets, which an order of insertion may show through.
-/

namespace Discourse

/-- Neither of two merges retires a cluster that the other one names. -/
structure Independent (a b c e : ClusterId) : Prop where
  losers : b ≠ e
  first : a ≠ e
  second : c ≠ b

theorem Independent.symm {a b c e : ClusterId} (h : Independent a b c e) : Independent c e a b :=
  ⟨h.losers.symm, h.second, h.first⟩

section Pairs

variable {a b c e : ClusterId}

theorem rename_merge_comm (h : Independent a b c e) (x : ClusterId) :
    (ClusterStep.merge c e).rename ((ClusterStep.merge a b).rename x) =
      (ClusterStep.merge a b).rename ((ClusterStep.merge c e).rename x) := by
  obtain ⟨losers, first, second⟩ := h
  simp only [ClusterStep.rename]
  grind

theorem not_touches_unorderedPair {id x y : Nat} (hx : x ≠ id) (hy : y ≠ id) :
    ¬ touches id (unorderedPair x y) = true := by
  simp [touches_unorderedPair, hx, hy]

/-- A pair of one loser that the other merge does not touch is rewritten by the one alone. -/
theorem mergedPair_bind_of_not_touches {pair : Nat × Nat} (h : Independent a b c e)
    (touch : touches b pair = true) (free : ¬ touches e pair = true) :
    (mergedPair a b pair).bind (mergedPair c e) =
      (mergedPair c e pair).bind (mergedPair a b) := by
  rw [mergedPair_of_not_touches free, Option.bind_some]
  cases merged : mergedPair a b pair with
  | none => rfl
  | some new =>
    obtain ⟨-, -, rfl⟩ := (mergedPair_of_touches touch _).mp merged
    have other : otherSide b pair ≠ e := by
      rintro rfl
      refine free ?_
      simp only [touches, otherSide, Bool.or_eq_true, beq_iff_eq]
      split <;> simp
    exact mergedPair_of_not_touches (not_touches_unorderedPair h.first other)

/-- The pair of the two losers becomes the pair of the two winners, if they are two. -/
theorem mergedPair_bind_of_touches {pair : Nat × Nat} (h : Independent a b c e)
    (first : touches b pair = true) (second : touches e pair = true) :
    (mergedPair a b pair).bind (mergedPair c e) =
      if a = c then none else some (unorderedPair a c) := by
  have other : otherSide b pair = e := by
    have ne := h.losers
    simp only [touches, otherSide, Bool.or_eq_true, beq_iff_eq] at first second ⊢
    grind
  have once : mergedPair a b pair = some (unorderedPair a e) :=
    (mergedPair_of_touches first _).mpr
      ⟨other ▸ h.first.symm, other ▸ h.losers.symm, other ▸ rfl⟩
  have touch : touches e (unorderedPair a e) = true := (touches_unorderedPair ..).mpr (.inr rfl)
  have back : otherSide e (unorderedPair a e) = a :=
    unorderedPair_comm e a ▸ otherSide_unorderedPair e a
  rw [once, Option.bind_some]
  split
  next same =>
    rw [mergedPair, if_pos touch, if_pos (.inl (back.trans same))]
  next ne =>
    refine (mergedPair_of_touches touch _).mpr ?_
    rw [back]
    exact ⟨ne, h.first, unorderedPair_comm ..⟩

/-- Two independent merges make the same of a pair in either order. -/
theorem mergedPair_comm (h : Independent a b c e) (pair : Nat × Nat) :
    (mergedPair a b pair).bind (mergedPair c e) =
      (mergedPair c e pair).bind (mergedPair a b) := by
  by_cases first : touches b pair = true <;> by_cases second : touches e pair = true
  · rw [mergedPair_bind_of_touches h first second,
      mergedPair_bind_of_touches h.symm second first, unorderedPair_comm]
    simp only [eq_comm]
  · exact mergedPair_bind_of_not_touches h first second
  · exact (mergedPair_bind_of_not_touches h.symm second first).symm
  · simp [mergedPair_of_not_touches first, mergedPair_of_not_touches second]

end Pairs

namespace Document

/-! ## The incompatible pairs -/

theorem mem_mergePairs_mergePairs_iff (pairs : KeySet (Nat × Nat)) (a b c e : ClusterId)
    (pair : Nat × Nat) :
    pair ∈ (mergePairs c e (mergePairs a b pairs)).toList ↔
      ∃ old ∈ pairs.toList, (mergedPair a b old).bind (mergedPair c e) = some pair := by
  simp only [mem_mergePairs_iff_mergedPair, Option.bind_eq_some_iff]
  exact ⟨fun ⟨between, ⟨old, mem, once⟩, twice⟩ => ⟨old, mem, between, once, twice⟩,
    fun ⟨old, mem, between, once, twice⟩ => ⟨between, ⟨old, mem, once⟩, twice⟩⟩

theorem mem_mergePairs_comm (pairs : KeySet (Nat × Nat)) {a b c e : ClusterId}
    (h : Independent a b c e) (pair : Nat × Nat) :
    pair ∈ (mergePairs c e (mergePairs a b pairs)).toList ↔
      pair ∈ (mergePairs a b (mergePairs c e pairs)).toList := by
  simp only [mem_mergePairs_mergePairs_iff, mergedPair_comm h]

/-! ## The remembered answers -/

section Answers

variable (known : Table (Nat × Nat) Bool) {winner loser : ClusterId}

/-- A yes stands where a yes lands. -/
theorem mergeAnswers_yes_iff (pair : Nat × Nat) :
    (mergeAnswers winner loser known).find? pair = some true ↔
      ∃ old, known.find? old = some true ∧ mergedPair winner loser old = some pair := by
  have handed : pair ∈ handOver winner loser ((known.entries.filter Prod.snd).map Prod.fst) ↔
      ∃ old, known.find? old = some true ∧ touches loser old = true ∧
        mergedPair winner loser old = some pair := by
    simp only [mem_handOver_iff_mergedPair, mem_held_iff]
  rw [find?_mergeAnswers]
  constructor
  · intro found
    split at found
    next mem =>
      obtain ⟨old, yes, -, merged⟩ := handed.mp mem
      exact ⟨old, yes, merged⟩
    next =>
      split at found
      · cases found
      next free => exact ⟨pair, found, mergedPair_of_not_touches free⟩
  · rintro ⟨old, yes, merged⟩
    by_cases touch : touches loser old = true
    · exact if_pos (handed.mpr ⟨old, yes, touch, merged⟩)
    · obtain rfl := Option.some.inj ((mergedPair_of_not_touches touch).symm.trans merged)
      rw [if_neg touch]
      split <;> simp [yes]

/-- A no stands where it stood, off the loser, if no yes lands on it. -/
theorem mergeAnswers_no_iff (pair : Nat × Nat) :
    (mergeAnswers winner loser known).find? pair = some false ↔
      known.find? pair = some false ∧ ¬ touches loser pair = true ∧
        ¬ ∃ old, known.find? old = some true ∧ mergedPair winner loser old = some pair := by
  rw [← mergeAnswers_yes_iff, find?_mergeAnswers]
  split
  · simp
  · split
    next touch => simp [touch]
    next free =>
      refine ⟨fun no => ⟨no, free, ?_⟩, And.left⟩
      simp [no]

variable {a b c e : ClusterId}

theorem mergeAnswers_mergeAnswers_yes_iff (pair : Nat × Nat) :
    (mergeAnswers c e (mergeAnswers a b known)).find? pair = some true ↔
      ∃ old, known.find? old = some true ∧
        (mergedPair a b old).bind (mergedPair c e) = some pair := by
  simp only [mergeAnswers_yes_iff, Option.bind_eq_some_iff]
  constructor
  · rintro ⟨between, ⟨old, yes, once⟩, twice⟩
    exact ⟨old, yes, between, once, twice⟩
  · rintro ⟨old, yes, between, once, twice⟩
    exact ⟨between, ⟨old, yes, once⟩, twice⟩

/-- A yes that the first merge lands on a pair off the second loser is still there after the second,
so it is enough to look for one at the end. -/
theorem mergeAnswers_mergeAnswers_no_iff (pair : Nat × Nat) :
    (mergeAnswers c e (mergeAnswers a b known)).find? pair = some false ↔
      known.find? pair = some false ∧ (¬ touches b pair = true ∧ ¬ touches e pair = true) ∧
        ¬ ∃ old, known.find? old = some true ∧
          (mergedPair a b old).bind (mergedPair c e) = some pair := by
  rw [mergeAnswers_no_iff, mergeAnswers_no_iff, ← mergeAnswers_yes_iff (mergeAnswers a b known),
    mergeAnswers_mergeAnswers_yes_iff]
  constructor
  · rintro ⟨⟨no, first, -⟩, second, none⟩
    exact ⟨no, ⟨first, second⟩, none⟩
  · rintro ⟨no, ⟨first, second⟩, none⟩
    refine ⟨⟨no, first, fun ⟨old, yes, once⟩ => none ⟨old, yes, ?_⟩⟩, second, none⟩
    rw [once, Option.bind_some, mergedPair_of_not_touches second]

theorem mergeAnswers_comm (h : Independent a b c e) :
    mergeAnswers c e (mergeAnswers a b known) = mergeAnswers a b (mergeAnswers c e known) := by
  refine Table.ext_find? fun pair => Option.ext fun answer => ?_
  cases answer with
  | true => simp only [mergeAnswers_mergeAnswers_yes_iff, mergedPair_comm h]
  | false =>
    simp only [mergeAnswers_mergeAnswers_no_iff, mergedPair_comm h,
      and_comm (a := ¬ touches b pair = true)]

end Answers

/-! ## The members and the mentions -/

theorem mem_membersOf_mergeClusters_of_ne (d : Document) {winner loser c : ClusterId}
    (neW : c ≠ winner) (neL : c ≠ loser) (id : MentionId) :
    id ∈ (d.mergeClusters winner loser).membersOf c ↔ id ∈ d.membersOf c := by
  rw [mem_membersOf_mergeClusters]
  constructor
  · rintro ⟨c', mem, rename⟩
    simp only [ClusterStep.rename] at rename
    split at rename
    · exact absurd rename.symm neW
    · exact rename ▸ mem
  · intro mem
    exact ⟨c, mem, if_neg neL⟩

theorem mem_membersOf_mergeClusters_comm (d : Document) {a b c e : ClusterId}
    (h : Independent a b c e) (x : ClusterId) (id : MentionId) :
    id ∈ ((d.mergeClusters a b).mergeClusters c e).membersOf x ↔
      id ∈ ((d.mergeClusters c e).mergeClusters a b).membersOf x := by
  have both : ∀ a b c e : ClusterId,
      id ∈ ((d.mergeClusters a b).mergeClusters c e).membersOf x ↔
        ∃ c', id ∈ d.membersOf c' ∧
          (ClusterStep.merge c e).rename ((ClusterStep.merge a b).rename c') = x := by
    intro a b c e
    simp only [mem_membersOf_mergeClusters]
    constructor
    · rintro ⟨_, ⟨c', mem, rfl⟩, rfl⟩
      exact ⟨c', mem, rfl⟩
    · rintro ⟨c', mem, rfl⟩
      exact ⟨_, ⟨c', mem, rfl⟩, rfl⟩
  simp only [both, rename_merge_comm h]

theorem mem_keys_clusters_mergeClusters (d : Document) {winner loser : ClusterId}
    (ne : winner ≠ loser) (c : ClusterId) :
    c ∈ (d.mergeClusters winner loser).clusters.keys ↔ c = winner ∨ c ∈ d.clusters.keys := by
  rw [mergeClusters_of_ne d ne]
  simp only [moveMembers, Table.mem_keys_insert, Table.keys_modify]

/-- No mention is in two clusters. -/
def MembersApart (d : Document) : Prop :=
  ∀ c e id, id ∈ d.membersOf c → id ∈ d.membersOf e → c = e

theorem Placed.membersApart {doc d : Document} {place : MentionId → ClusterId}
    (h : Placed doc d place) : d.MembersApart := by
  intro c e id inC inE
  rw [← ((h.members c id).mp inC).2, ((h.members e id).mp inE).2]

theorem mention?_mergeClusters_comm {d : Document} (apart : d.MembersApart) {a b c e : ClusterId}
    (h : Independent a b c e) (id : MentionId) :
    ((d.mergeClusters a b).mergeClusters c e).mention? id =
      ((d.mergeClusters c e).mergeClusters a b).mention? id := by
  simp only [mention?_mergeClusters, mem_membersOf_mergeClusters_of_ne d h.first.symm h.losers.symm,
    mem_membersOf_mergeClusters_of_ne d h.second.symm h.losers]
  by_cases first : a ≠ b ∧ id ∈ d.membersOf b
  · have free : ¬ (c ≠ e ∧ id ∈ d.membersOf e) := fun second =>
      h.losers (apart b e id first.2 second.2)
    simp only [if_pos first, if_neg free]
  · simp only [if_neg first]

/-! ## Both orders -/

/-- Two documents with the same clusters and the same judgements of them. -/
structure SameClusters (d d' : Document) : Prop where
  clusters : ∀ c, c ∈ d.clusters.keys ↔ c ∈ d'.clusters.keys
  members : ∀ c id, id ∈ d.membersOf c ↔ id ∈ d'.membersOf c
  mentions : d.mentions = d'.mentions
  incompatible : d.incompatible = d'.incompatible
  incompatibleClusters :
    ∀ pair, pair ∈ d.incompatibleClusters.toList ↔ pair ∈ d'.incompatibleClusters.toList
  acronyms : d.acronyms = d'.acronyms

theorem sameClusters_mergeClusters {d : Document} (apart : d.MembersApart) {a b c e : ClusterId}
    (h : Independent a b c e) :
    SameClusters ((d.mergeClusters a b).mergeClusters c e)
      ((d.mergeClusters c e).mergeClusters a b) := by
  have mentions : ((d.mergeClusters a b).mergeClusters c e).mentions =
      ((d.mergeClusters c e).mergeClusters a b).mentions :=
    Table.ext_find? (mention?_mergeClusters_comm apart h)
  -- a merge of a cluster with itself does nothing, and the rest is about two that do something
  by_cases ab : a = b
  · subst ab
    simp only [mergeClusters_self]
    exact ⟨fun _ => .rfl, fun _ _ => .rfl, rfl, rfl, fun _ => .rfl, rfl⟩
  by_cases ce : c = e
  · subst ce
    simp only [mergeClusters_self]
    exact ⟨fun _ => .rfl, fun _ _ => .rfl, rfl, rfl, fun _ => .rfl, rfl⟩
  refine ⟨fun x => ?_, mem_membersOf_mergeClusters_comm d h, mentions, ?_, fun pair => ?_, ?_⟩
  · simp only [mem_keys_clusters_mergeClusters _ ab, mem_keys_clusters_mergeClusters _ ce]
    exact or_left_comm
  · simp only [mergeClusters_of_ne _ ab, mergeClusters_of_ne _ ce, moveMembers]
  · simp only [mergeClusters_of_ne _ ab, mergeClusters_of_ne _ ce, moveMembers]
    exact mem_mergePairs_comm d.incompatibleClusters h pair
  · simp only [mergeClusters_of_ne _ ab, mergeClusters_of_ne _ ce, moveMembers]
    exact mergeAnswers_comm d.acronyms h

/-- After any run two independent merges lead to the same clusters in either order.  Nothing is
asked of the document or of the marks of the run, and the two merges may have one winner. -/
theorem mergeClusters_comm (doc : Document) (steps : List ClusterStep) (a b c e : ClusterId)
    (independent : Independent a b c e) :
    let d := doc.initializeClusters.clusterRun steps
    SameClusters ((d.mergeClusters a b).mergeClusters c e)
      ((d.mergeClusters c e).mergeClusters a b) :=
  sameClusters_mergeClusters (doc.placed_clusterRun steps).membersApart independent

/-- The losers are known to abbreviate each other and the winners not to; either way the yes reaches
the winners and takes the place of the no. -/
theorem mergeClusters_comm_handed_on :
    let doc := ofTexts ["Apple", "IBM", "Siemens", "International Business Machines"]
    let d := doc.initializeClusters.clusterRun [.mark 1 3, .ask 0 2, .ask 1 3]
    Independent 0 1 2 3 ∧ d.knownAcronym? 0 2 = some false ∧
      ((d.mergeClusters 0 1).mergeClusters 2 3).knownAcronym? 0 2 = some true ∧
      SameClusters ((d.mergeClusters 0 1).mergeClusters 2 3)
        ((d.mergeClusters 2 3).mergeClusters 0 1) := by
  intro doc d
  have independent : Independent 0 1 2 3 := ⟨by decide, by decide, by decide⟩
  exact ⟨independent, by decide +kernel, by decide +kernel,
    mergeClusters_comm doc _ 0 1 2 3 independent⟩

end Document

end Discourse
