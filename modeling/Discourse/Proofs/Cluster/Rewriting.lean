import Discourse.Proofs.Cluster.Exchange
/-!
# Rewriting in place

What is known of pairs of clusters can be rewritten in place when `loser` goes into `winner`: the
pairs that touch `loser` are listed first, and then one after the other is taken out and the pair of
its other side with `winner` put in.  No pair that is put in touches `loser`, so none of them is
listed, and none of the later steps takes it out again.  Hence the order of the list does not matter
(`mem_foldl_rewritePair_iff`, `find?_foldl_rewriteAnswer`), and a second merge finds no pair to list
(`mergePairs_of_free`, `mergeAnswers_of_free`).
-/

namespace Discourse

variable {winner loser : Nat}

/-- What a set of pairs has become when `loser` has gone into `winner`. -/
def PairsRewritten (winner loser : Nat) (old new : KeySet (Nat × Nat)) : Prop :=
  ∀ pair, pair ∈ new.toList ↔
    pair ∈ old.toList ∧ touches loser pair = false ∨
      ∃ x, x ≠ winner ∧ x ≠ loser ∧ unorderedPair x loser ∈ old.toList ∧
        pair = unorderedPair x winner

/-- What the known answers have become when `loser` has gone into `winner`. -/
structure AnswersRewritten (winner loser : Nat) (old new : Table (Nat × Nat) Bool) : Prop where
  dropped : ∀ pair, touches loser pair = true → new.find? pair = none
  handed : ∀ x, x ≠ winner → x ≠ loser → new.find? (unorderedPair x winner) =
    if old.find? (unorderedPair x winner) = some true ∨ old.find? (unorderedPair x loser) = some true
    then some true else old.find? (unorderedPair x winner)
  kept : ∀ pair, touches loser pair = false →
    (∀ x, x ≠ winner → x ≠ loser → pair ≠ unorderedPair x winner) → new.find? pair = old.find? pair

/-- One listed pair rewritten in a set of pairs. -/
def rewritePair (winner loser : Nat) (pairs : KeySet (Nat × Nat)) (pair : Nat × Nat) :
    KeySet (Nat × Nat) :=
  let other := otherSide loser pair
  if other ≠ winner ∧ other ≠ loser then
    (pairs.erase pair).insert (unorderedPair other winner)
  else pairs.erase pair

/-- One listed answer rewritten among the known ones; only a yes is put in again. -/
def rewriteAnswer (winner loser : Nat) (known : Table (Nat × Nat) Bool)
    (entry : (Nat × Nat) × Bool) : Table (Nat × Nat) Bool :=
  let other := otherSide loser entry.1
  if entry.2 = true ∧ other ≠ winner ∧ other ≠ loser then
    (known.erase entry.1).insert (unorderedPair other winner) true
  else known.erase entry.1

/-! ## One step -/

theorem mergedPair_of_touches_iff {pair : Nat × Nat} (touch : touches loser pair = true)
    (merged : Nat × Nat) :
    mergedPair winner loser pair = some merged ↔
      (otherSide loser pair ≠ winner ∧ otherSide loser pair ≠ loser) ∧
        merged = unorderedPair (otherSide loser pair) winner := by
  rw [mergedPair_of_touches touch, unorderedPair_comm winner, and_assoc]

/-- A pair that a merge makes of a pair of the loser is off the loser. -/
theorem not_touches_of_mergedPair (ne : winner ≠ loser) {pair merged : Nat × Nat}
    (touch : touches loser pair = true) (eq : mergedPair winner loser pair = some merged) :
    touches loser merged = false := by
  obtain ⟨⟨-, neL⟩, rfl⟩ := (mergedPair_of_touches_iff touch merged).mp eq
  exact Bool.eq_false_iff.mpr (not_touches_unorderedPair neL ne)

theorem mem_rewritePair_iff (pairs : KeySet (Nat × Nat)) {old : Nat × Nat}
    (touch : touches loser old = true) (pair : Nat × Nat) :
    pair ∈ (rewritePair winner loser pairs old).toList ↔
      pair ∈ pairs.toList ∧ pair ≠ old ∨ mergedPair winner loser old = some pair := by
  have erased : pair ∈ (pairs.erase old).toList ↔ pair ∈ pairs.toList ∧ pair ≠ old := by
    simp [KeySet.erase]
  rw [mergedPair_of_touches_iff touch, rewritePair]
  split
  next put =>
    rw [KeySet.mem_insert, erased, or_comm]
    exact or_congr_right (and_iff_right put).symm
  next gone =>
    rw [erased]
    exact (or_iff_left fun both => gone both.1).symm

theorem find?_rewriteAnswer (known : Table (Nat × Nat) Bool) {old : Nat × Nat} (answer : Bool)
    (touch : touches loser old = true) (pair : Nat × Nat) :
    (rewriteAnswer winner loser known (old, answer)).find? pair =
      if answer = true ∧ mergedPair winner loser old = some pair then some true
      else if pair = old then none else known.find? pair := by
  have erased : (known.erase old).find? pair = if pair = old then none else known.find? pair := by
    rw [Table.erase, Table.find?_filterKeys]
    by_cases same : pair = old <;> simp [same]
  simp only [mergedPair_of_touches_iff touch, rewriteAnswer]
  by_cases put : answer = true ∧ otherSide loser old ≠ winner ∧ otherSide loser old ≠ loser
  · rw [if_pos put, Table.find?_insert, erased]
    simp only [put.1, put.2, ne_eq, not_false_eq_true, and_self, true_and]
  · have gone : ¬ (answer = true ∧ (otherSide loser old ≠ winner ∧ otherSide loser old ≠ loser) ∧
        pair = unorderedPair (otherSide loser old) winner) := by
      rintro ⟨yes, others, -⟩
      exact put ⟨yes, others⟩
    rw [if_neg put, erased, if_neg gone]

/-! ## The listed pairs in any order -/

theorem mem_foldl_rewritePair_iff (ne : winner ≠ loser) (pairs : KeySet (Nat × Nat))
    {visited : List (Nat × Nat)} (touching : ∀ old ∈ visited, touches loser old = true)
    (pair : Nat × Nat) :
    pair ∈ (visited.foldl (rewritePair winner loser) pairs).toList ↔
      pair ∈ pairs.toList ∧ pair ∉ visited ∨
        ∃ old ∈ visited, mergedPair winner loser old = some pair := by
  induction visited generalizing pairs with
  | nil => simp
  | cons old rest ih =>
    obtain ⟨touch, touching⟩ := List.forall_mem_cons.mp touching
    -- what the first step puts in is not among the pairs listed after it
    have lasting : mergedPair winner loser old = some pair → pair ∉ rest := by
      intro merged listed
      have off := not_touches_of_mergedPair ne touch merged
      rw [touching pair listed] at off
      cases off
    rw [List.foldl_cons, ih _ touching, mem_rewritePair_iff pairs touch, List.mem_cons, not_or]
    constructor
    · rintro (⟨⟨mem, apart⟩ | merged, unlisted⟩ | ⟨other, listed, merged⟩)
      · exact .inl ⟨mem, apart, unlisted⟩
      · exact .inr ⟨old, List.mem_cons_self, merged⟩
      · exact .inr ⟨other, List.mem_cons_of_mem old listed, merged⟩
    · rintro (⟨mem, apart, unlisted⟩ | ⟨other, listed, merged⟩)
      · exact .inl ⟨.inl ⟨mem, apart⟩, unlisted⟩
      · rcases List.mem_cons.mp listed with rfl | listed
        · exact .inl ⟨.inr merged, lasting merged⟩
        · exact .inr ⟨other, listed, merged⟩

/-- The pairs that get a yes from the listed answers. -/
def affirmed (winner loser : Nat) (visited : List ((Nat × Nat) × Bool)) : List (Nat × Nat) :=
  (visited.filter Prod.snd).filterMap fun entry => mergedPair winner loser entry.1

theorem mem_affirmed_cons_iff (old : Nat × Nat) (answer : Bool) (rest : List ((Nat × Nat) × Bool))
    (pair : Nat × Nat) :
    pair ∈ affirmed winner loser ((old, answer) :: rest) ↔
      (answer = true ∧ mergedPair winner loser old = some pair) ∨
        pair ∈ affirmed winner loser rest := by
  cases answer <;> simp [affirmed]

theorem find?_foldl_rewriteAnswer (ne : winner ≠ loser) (known : Table (Nat × Nat) Bool)
    {visited : List ((Nat × Nat) × Bool)}
    (touching : ∀ entry ∈ visited, touches loser entry.1 = true) (pair : Nat × Nat) :
    (visited.foldl (rewriteAnswer winner loser) known).find? pair =
      if pair ∈ affirmed winner loser visited then some true
      else if pair ∈ visited.map Prod.fst then none else known.find? pair := by
  induction visited generalizing known with
  | nil => rfl
  | cons entry rest ih =>
    obtain ⟨old, answer⟩ := entry
    obtain ⟨touch, touching⟩ := List.forall_mem_cons.mp touching
    rw [List.foldl_cons, ih _ touching, find?_rewriteAnswer known answer touch]
    by_cases later : pair ∈ affirmed winner loser rest
    · rw [if_pos later, if_pos ((mem_affirmed_cons_iff ..).mpr (.inr later))]
    · by_cases yes : answer = true ∧ mergedPair winner loser old = some pair
      · have unlisted : pair ∉ rest.map Prod.fst := by
          intro listed
          obtain ⟨entry, mem, rfl⟩ := List.mem_map.mp listed
          have off := not_touches_of_mergedPair ne touch yes.2
          rw [touching entry mem] at off
          cases off
        rw [if_neg later, if_neg unlisted, if_pos yes,
          if_pos ((mem_affirmed_cons_iff ..).mpr (.inl yes))]
      · have nowhere : pair ∉ affirmed winner loser ((old, answer) :: rest) := by
          rw [mem_affirmed_cons_iff]
          exact not_or.mpr ⟨yes, later⟩
        rw [if_neg later, if_neg yes, if_neg nowhere, List.map_cons]
        by_cases same : pair = old
        · have listed : pair ∈ old :: rest.map Prod.fst := by
            rw [same]
            exact List.mem_cons_self
          rw [if_pos same, if_pos listed]
          split <;> rfl
        · have listed : pair ∈ old :: rest.map Prod.fst ↔ pair ∈ rest.map Prod.fst := by
            rw [List.mem_cons]
            exact or_iff_right same
          simp only [if_neg same, listed]

namespace Document

/-! ## The result of a merge -/

section Merge

variable {pairs : KeySet (Nat × Nat)} {known : Table (Nat × Nat) Bool}

theorem pairsRewritten_mergePairs (ordered : PairsOrdered pairs.toList) (winner loser : Nat) :
    PairsRewritten winner loser pairs (mergePairs winner loser pairs) := by
  intro pair
  rw [mem_mergePairs_iff ordered]
  simp only [unorderedPair_comm loser, unorderedPair_comm winner]

theorem answersRewritten_mergeAnswers (ne : winner ≠ loser) (ordered : PairsOrdered known.keys) :
    AnswersRewritten winner loser known (mergeAnswers winner loser known) := by
  have handed (pair : Nat × Nat) :
      pair ∈ handOver winner loser ((known.entries.filter Prod.snd).map Prod.fst) ↔
        ∃ x, x ≠ winner ∧ x ≠ loser ∧ known.find? (unorderedPair x loser) = some true ∧
          pair = unorderedPair x winner := by
    simp only [mem_handOver_iff (held_ordered ordered), mem_held_iff, unorderedPair_comm loser,
      unorderedPair_comm winner]
  refine ⟨fun pair touch => ?_, fun x neW neL => ?_, fun pair free other => ?_⟩
  · rw [find?_mergeAnswers, if_pos touch, if_neg]
    rw [handed]
    rintro ⟨x, -, neL, -, rfl⟩
    exact not_touches_unorderedPair neL ne touch
  · have here : unorderedPair x winner ∈
        handOver winner loser ((known.entries.filter Prod.snd).map Prod.fst) ↔
          known.find? (unorderedPair x loser) = some true := by
      rw [handed]
      constructor
      · rintro ⟨y, neW', -, yes, same⟩
        rcases unorderedPair_eq_iff.mp same with ⟨rfl, -⟩ | ⟨rfl, rfl⟩
        · exact yes
        · exact absurd rfl neW
      · intro yes
        exact ⟨x, neW, neL, yes, rfl⟩
    have free := not_touches_unorderedPair neL ne
    rw [find?_mergeAnswers, if_neg free]
    by_cases yes : known.find? (unorderedPair x loser) = some true
    · rw [if_pos (here.mpr yes), if_pos (.inr yes)]
    · rw [if_neg (mt here.mp yes)]
      split
      next stood => exact stood.resolve_right yes
      next => rfl
  · rw [find?_mergeAnswers, if_neg (Bool.eq_false_iff.mp free), if_neg]
    rw [handed]
    rintro ⟨x, neW, neL, -, same⟩
    exact other x neW neL same

/-! ## In place -/

/-- Rewriting the pairs one by one, in any order, comes to the same as rewriting the set. -/
theorem mem_foldl_rewritePair_iff_mergePairs (ne : winner ≠ loser) {visited : List (Nat × Nat)}
    (listed : visited.Perm (pairs.toList.filter (touches loser))) (pair : Nat × Nat) :
    pair ∈ (visited.foldl (rewritePair winner loser) pairs).toList ↔
      pair ∈ (mergePairs winner loser pairs).toList := by
  have mem_visited (old : Nat × Nat) :
      old ∈ visited ↔ old ∈ pairs.toList ∧ touches loser old = true := by
    rw [listed.mem_iff, List.mem_filter]
  have touching : ∀ old ∈ visited, touches loser old = true := by
    intro old mem
    exact ((mem_visited old).mp mem).2
  rw [mem_foldl_rewritePair_iff ne pairs touching, mem_mergePairs_iff_mergedPair]
  constructor
  · rintro (⟨mem, unlisted⟩ | ⟨old, listed, merged⟩)
    · refine ⟨pair, mem, mergedPair_of_not_touches fun touch => ?_⟩
      exact unlisted ((mem_visited pair).mpr ⟨mem, touch⟩)
    · exact ⟨old, ((mem_visited old).mp listed).1, merged⟩
  · rintro ⟨old, mem, merged⟩
    by_cases touch : touches loser old = true
    · exact .inr ⟨old, (mem_visited old).mpr ⟨mem, touch⟩, merged⟩
    · obtain rfl := Option.some.inj ((mergedPair_of_not_touches touch).symm.trans merged)
      exact .inl ⟨mem, fun listed => touch (touching old listed)⟩

/-- Rewriting the answers one by one, in any order, comes to the same as rewriting the table. -/
theorem foldl_rewriteAnswer_eq_mergeAnswers (ne : winner ≠ loser)
    {visited : List ((Nat × Nat) × Bool)}
    (listed : visited.Perm (known.entries.filter fun entry => touches loser entry.1)) :
    visited.foldl (rewriteAnswer winner loser) known = mergeAnswers winner loser known := by
  have mem_visited (old : Nat × Nat) (answer : Bool) : (old, answer) ∈ visited ↔
      known.find? old = some answer ∧ touches loser old = true := by
    rw [listed.mem_iff, List.mem_filter, Table.mem_entries_iff]
  have touching : ∀ entry ∈ visited, touches loser entry.1 = true := by
    intro entry mem
    exact ((mem_visited entry.1 entry.2).mp mem).2
  refine Table.ext_find? fun pair => ?_
  have yes : pair ∈ affirmed winner loser visited ↔
      pair ∈ handOver winner loser ((known.entries.filter Prod.snd).map Prod.fst) := by
    rw [mem_handOver_iff_mergedPair]
    simp only [affirmed, List.mem_filterMap, List.mem_filter, mem_held_iff]
    constructor
    · rintro ⟨⟨old, answer⟩, ⟨mem, rfl⟩, merged⟩
      obtain ⟨found, touch⟩ := (mem_visited old true).mp mem
      exact ⟨old, found, touch, merged⟩
    · rintro ⟨old, found, touch, merged⟩
      exact ⟨(old, true), ⟨(mem_visited old true).mpr ⟨found, touch⟩, rfl⟩, merged⟩
  simp only [find?_foldl_rewriteAnswer ne known touching, find?_mergeAnswers, yes]
  split
  next => rfl
  next =>
    by_cases touch : touches loser pair = true
    · -- a pair of the loser that is not listed has no answer anyway
      rw [if_pos touch]
      split
      next => rfl
      next unlisted =>
        cases found : known.find? pair with
        | none => rfl
        | some answer =>
          have mem := (mem_visited pair answer).mpr ⟨found, touch⟩
          exact absurd (List.mem_map_of_mem mem) unlisted
    · have unlisted : pair ∉ visited.map Prod.fst := by
        intro listed
        obtain ⟨entry, mem, rfl⟩ := List.mem_map.mp listed
        exact touch (touching entry mem)
      rw [if_neg unlisted, if_neg touch]

/-! ## A second time -/

theorem handOver_of_free {listed : List (Nat × Nat)}
    (free : ∀ pair ∈ listed, touches loser pair = false) : handOver winner loser listed = [] := by
  have nothing : listed.filter (touches loser) = [] := by
    refine List.filter_eq_nil_iff.mpr fun pair mem => ?_
    exact Bool.eq_false_iff.mp (free pair mem)
  rw [handOver, nothing]
  rfl

theorem mergePairs_of_free (free : ∀ pair ∈ pairs.toList, touches loser pair = false) :
    mergePairs winner loser pairs = pairs := by
  have all : (pairs.filter fun pair => !touches loser pair) = pairs := by
    obtain ⟨listed, once⟩ := pairs
    have same : (listed.filter fun pair => !touches loser pair) = listed := by
      refine List.filter_eq_self.mpr fun pair mem => ?_
      rw [free pair mem, Bool.not_false]
    exact (KeySet.mk.injEq ..).mpr same
  rw [mergePairs, all, handOver_of_free free]
  rfl

theorem mergeAnswers_of_free (free : ∀ pair, touches loser pair = true → known.find? pair = none) :
    mergeAnswers winner loser known = known := by
  have off : ∀ pair ∈ (known.entries.filter Prod.snd).map Prod.fst,
      touches loser pair = false := by
    intro pair mem
    refine Bool.eq_false_iff.mpr fun touch => ?_
    have found := (mem_held_iff known pair).mp mem
    rw [free pair touch] at found
    cases found
  refine Table.ext_find? fun pair => ?_
  rw [find?_mergeAnswers, handOver_of_free off, if_neg List.not_mem_nil]
  split
  next touch => exact (free pair touch).symm
  next => rfl

end Merge

/-- A merge leaves no pair of the loser.  Each pair of the loser with a third cluster becomes one of
the winner, of the answers each yes; the rest stays.  Rewriting in place comes to the same in any
order, and a second time nothing changes. -/
theorem merge_rewrites (doc : Document) {winner loser : ClusterId} (ne : winner ≠ loser)
    (pairs : PairsOrdered doc.incompatibleClusters.toList)
    (answers : PairsOrdered doc.acronyms.keys) :
    (PairsRewritten winner loser doc.incompatibleClusters
        (doc.mergeIncompatible winner loser).incompatibleClusters ∧
      AnswersRewritten winner loser doc.acronyms (doc.mergeAcronyms winner loser).acronyms) ∧
    (∀ visited : List (Nat × Nat), visited.Perm (doc.incompatibleClusters.toList.filter (touches loser)) →
      ∀ pair, pair ∈ (visited.foldl (rewritePair winner loser) doc.incompatibleClusters).toList ↔
        pair ∈ (doc.mergeIncompatible winner loser).incompatibleClusters.toList) ∧
    (∀ visited : List ((Nat × Nat) × Bool),
      visited.Perm (doc.acronyms.entries.filter fun entry => touches loser entry.1) →
      visited.foldl (rewriteAnswer winner loser) doc.acronyms =
        (doc.mergeAcronyms winner loser).acronyms) ∧
    (doc.mergeIncompatible winner loser).mergeIncompatible winner loser =
        doc.mergeIncompatible winner loser ∧
      (doc.mergeAcronyms winner loser).mergeAcronyms winner loser =
        doc.mergeAcronyms winner loser := by
  have merged : doc.mergeIncompatible winner loser = { doc with
      incompatibleClusters := mergePairs winner loser doc.incompatibleClusters } := if_neg ne
  have remembered : doc.mergeAcronyms winner loser = { doc with
      acronyms := mergeAnswers winner loser doc.acronyms } := if_neg ne
  have rewritten := pairsRewritten_mergePairs pairs winner loser
  have handed := answersRewritten_mergeAnswers ne answers
  rw [merged, remembered]
  refine ⟨⟨rewritten, handed⟩, ?_, ?_, ?_, ?_⟩
  · intro visited listed pair
    exact mem_foldl_rewritePair_iff_mergePairs ne listed pair
  · intro visited listed
    exact foldl_rewriteAnswer_eq_mergeAnswers ne listed
  · have free : ∀ pair ∈ (mergePairs winner loser doc.incompatibleClusters).toList,
        touches loser pair = false := by
      intro pair mem
      rcases (rewritten pair).mp mem with ⟨-, free⟩ | ⟨x, -, neL, -, rfl⟩
      · exact free
      · exact Bool.eq_false_iff.mpr (not_touches_unorderedPair neL ne)
    rw [mergeIncompatible, if_neg ne]
    dsimp only
    rw [mergePairs_of_free free]
  · rw [mergeAcronyms, if_neg ne]
    dsimp only
    rw [mergeAnswers_of_free handed.dropped]

/-- Pairs with the loser on either side, a no of the winner that a yes of the loser replaces, and a
no of the loser that is dropped. -/
theorem merge_rewrites_both_sides :
    let doc := { ofTexts ["a", "b", "c", "d"] with
      incompatibleClusters := .ofList [(0, 2), (2, 3), (1, 2), (0, 3)]
      acronyms := .ofList [((0, 1), false), ((0, 2), true), ((2, 3), false), ((0, 3), true)] }
    PairsOrdered doc.incompatibleClusters.toList ∧ PairsOrdered doc.acronyms.keys ∧
      (doc.mergeIncompatible 1 2).incompatibleClusters.toList = [(0, 1), (0, 3), (1, 3)] ∧
      (doc.mergeAcronyms 1 2).acronyms.entries = [((0, 1), true), ((0, 3), true)] ∧
      PairsRewritten 1 2 doc.incompatibleClusters
        (doc.mergeIncompatible 1 2).incompatibleClusters ∧
      AnswersRewritten 1 2 doc.acronyms (doc.mergeAcronyms 1 2).acronyms := by
  intro doc
  have pairs : PairsOrdered doc.incompatibleClusters.toList := by decide +kernel
  have answers : PairsOrdered doc.acronyms.keys := by decide +kernel
  obtain ⟨⟨rewritten, handed⟩, -⟩ := doc.merge_rewrites (by decide : 1 ≠ 2) pairs answers
  exact ⟨pairs, answers, by decide +kernel, by decide +kernel, rewritten, handed⟩

end Document

end Discourse
