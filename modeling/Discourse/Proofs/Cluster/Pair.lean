import Discourse.Proofs.Cluster.Run
/-!
# Pairs of clusters

What is known of two clusters is kept under their ids as an unordered pair, the smaller first.  A
merge looks for the pairs that touch the loser and keeps the other side of each.  On ordered pairs
the two together lose nothing: a pair that touches an id is that id with its other side.
-/

namespace Discourse

/-- What becomes of one pair when `loser` goes into `winner`; nothing, if the two are its sides. -/
def mergedPair (winner loser : Nat) (pair : Nat × Nat) : Option (Nat × Nat) :=
  if touches loser pair then
    if otherSide loser pair = winner ∨ otherSide loser pair = loser then none
    else some (unorderedPair winner (otherSide loser pair))
  else some pair

theorem touches_unorderedPair (id a b : Nat) :
    touches id (unorderedPair a b) = true ↔ a = id ∨ b = id := by
  simp only [touches, unorderedPair, Bool.or_eq_true, beq_iff_eq]
  omega

theorem otherSide_unorderedPair (id b : Nat) : otherSide id (unorderedPair id b) = b := by
  by_cases h : min id b = id <;> simp only [otherSide, unorderedPair, h, if_true, if_false] <;> omega

theorem eq_unorderedPair_otherSide {id : Nat} {pair : Nat × Nat} (le : pair.1 ≤ pair.2)
    (h : touches id pair = true) : pair = unorderedPair id (otherSide id pair) := by
  obtain ⟨a, b⟩ := pair
  simp only [touches, Bool.or_eq_true, beq_iff_eq] at h
  simp only [otherSide, unorderedPair, Prod.mk.injEq]
  split <;> omega

/-- Pairs are kept with the smaller id first. -/
def PairsOrdered (pairs : List (Nat × Nat)) : Prop := ∀ pair ∈ pairs, pair.1 ≤ pair.2

instance (pairs : List (Nat × Nat)) : Decidable (PairsOrdered pairs) :=
  inferInstanceAs (Decidable (∀ pair ∈ pairs, pair.1 ≤ pair.2))

/-! ## One pair at a time -/

theorem mergedPair_of_touches {winner loser : Nat} {pair : Nat × Nat}
    (touch : touches loser pair = true) (merged : Nat × Nat) :
    mergedPair winner loser pair = some merged ↔
      otherSide loser pair ≠ winner ∧ otherSide loser pair ≠ loser ∧
        merged = unorderedPair winner (otherSide loser pair) := by
  rw [mergedPair, if_pos touch]
  split
  next same =>
    rcases same with same | same <;> simp [same]
  next ne =>
    obtain ⟨neW, neL⟩ := not_or.mp ne
    simp [neW, neL, eq_comm]

theorem mergedPair_of_not_touches {winner loser : Nat} {pair : Nat × Nat}
    (touch : ¬ touches loser pair = true) : mergedPair winner loser pair = some pair :=
  if_neg touch

theorem mem_handOver_iff_mergedPair (pairs : List (Nat × Nat)) (winner loser : Nat)
    (pair : Nat × Nat) :
    pair ∈ handOver winner loser pairs ↔
      ∃ old ∈ pairs, touches loser old = true ∧ mergedPair winner loser old = some pair := by
  simp only [handOver, List.mem_map, List.mem_filter, Bool.and_eq_true, bne_iff_ne, ne_eq]
  constructor
  · rintro ⟨other, ⟨⟨old, ⟨mem, touch⟩, rfl⟩, neW, neL⟩, rfl⟩
    exact ⟨old, mem, touch, (mergedPair_of_touches touch _).mpr ⟨neW, neL, rfl⟩⟩
  · rintro ⟨old, mem, touch, merged⟩
    obtain ⟨neW, neL, rfl⟩ := (mergedPair_of_touches touch _).mp merged
    exact ⟨_, ⟨⟨old, ⟨mem, touch⟩, rfl⟩, neW, neL⟩, rfl⟩

/-- What a merge hands over: the winner takes the loser's place in a pair. -/
theorem mem_handOver_iff {pairs : List (Nat × Nat)} (ordered : PairsOrdered pairs)
    (winner loser : Nat) (pair : Nat × Nat) :
    pair ∈ handOver winner loser pairs ↔
      ∃ other, other ≠ winner ∧ other ≠ loser ∧ unorderedPair loser other ∈ pairs ∧
        pair = unorderedPair winner other := by
  rw [mem_handOver_iff_mergedPair]
  constructor
  · rintro ⟨old, mem, touch, merged⟩
    obtain ⟨neW, neL, rfl⟩ := (mergedPair_of_touches touch _).mp merged
    exact ⟨_, neW, neL, eq_unorderedPair_otherSide (ordered old mem) touch ▸ mem, rfl⟩
  · rintro ⟨other, neW, neL, mem, rfl⟩
    have touch := (touches_unorderedPair loser loser other).mpr (.inl rfl)
    refine ⟨_, mem, touch, (mergedPair_of_touches touch _).mpr ?_⟩
    rw [otherSide_unorderedPair]
    exact ⟨neW, neL, rfl⟩

/-- Rewriting a set of pairs rewrites every pair of it. -/
theorem mem_mergePairs_iff_mergedPair (pairs : KeySet (Nat × Nat)) (winner loser : Nat)
    (pair : Nat × Nat) :
    pair ∈ (Document.mergePairs winner loser pairs).toList ↔
      ∃ old ∈ pairs.toList, mergedPair winner loser old = some pair := by
  simp only [Document.mergePairs, KeySet.mem_insertAll, KeySet.mem_filter, Bool.not_eq_true',
    mem_handOver_iff_mergedPair]
  constructor
  · rintro (⟨mem, free⟩ | ⟨old, mem, -, merged⟩)
    · exact ⟨pair, mem, mergedPair_of_not_touches (by simp [free])⟩
    · exact ⟨old, mem, merged⟩
  · rintro ⟨old, mem, merged⟩
    by_cases touch : touches loser old = true
    · exact .inr ⟨old, mem, touch, merged⟩
    · obtain rfl := Option.some.inj ((mergedPair_of_not_touches touch).symm.trans merged)
      exact .inl ⟨mem, Bool.eq_false_iff.mpr touch⟩

end Discourse
