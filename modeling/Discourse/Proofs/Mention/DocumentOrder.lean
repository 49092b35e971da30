import Discourse.Mention.Basic
/-!
# The order of mentions

Mentions are compared by where they are, then by their heads, then lists come first, and the ids
decide.  So the comparison is one of six numbers in turn (`Mention.isBefore_iff`), and orders
mentions with different ids strictly and totally (`Mention.documentOrder_orders`).  Of two different
spans one inside the other, the outer starts earlier or ends later, and comes first.
-/

namespace Discourse

theorem compareNat_eq_lt {a b : Nat} : compareNat a b = .lt ↔ a < b := by
  unfold compareNat
  split
  · simp [*]
  · split <;> simp [*]

theorem compareNat_eq_eq {a b : Nat} : compareNat a b = .eq ↔ a = b := by
  unfold compareNat
  split
  · simp only [reduceCtorEq, false_iff]
    omega
  · split <;> simp [*]

theorem compareNat_swap (a b : Nat) : (compareNat a b).swap = compareNat b a := by
  rcases Nat.lt_trichotomy a b with lt | eq | gt
  · simp [compareNat, lt, Nat.lt_asymm lt, Nat.ne_of_gt lt]
  · simp [compareNat, eq]
  · simp [compareNat, gt, Nat.lt_asymm gt, Nat.ne_of_gt gt]

namespace Mention

/-- The number by which a list comes before anything else of its span. -/
def rank (type : MentionType) : Nat := if type = .list then 0 else 1

theorem compareKind_eq (a b : MentionType) : compareKind a b = compareNat (rank a) (rank b) := by
  cases a <;> cases b <;> rfl

theorem isBefore_iff {a b : Mention} : a.isBefore b = true ↔
    a.sentence < b.sentence ∨ a.sentence = b.sentence ∧
      (a.start < b.start ∨ a.start = b.start ∧
        (b.stop < a.stop ∨ b.stop = a.stop ∧
          (a.head < b.head ∨ a.head = b.head ∧
            (rank a.type < rank b.type ∨
              rank a.type = rank b.type ∧ @LT.lt Nat _ a.id b.id)))) := by
  simp only [isBefore, documentOrder, beq_iff_eq, Ordering.then_eq_lt, compareKind_eq,
    compareNat_eq_lt, compareNat_eq_eq]

theorem isBefore_irrefl (a : Mention) : a.isBefore a = false := by
  rw [Bool.eq_false_iff, Ne, isBefore_iff]
  omega

theorem isBefore_trans {a b c : Mention} (h : a.isBefore b = true) (h' : b.isBefore c = true) :
    a.isBefore c = true := by
  rw [isBefore_iff] at h h' ⊢
  omega

theorem isBefore_total {a b : Mention} (apart : a.id ≠ b.id) :
    a.isBefore b = true ∨ b.isBefore a = true := by
  have apart : ¬ @Eq Nat a.id b.id := apart
  rw [isBefore_iff, isBefore_iff]
  omega

/-- A mention comes before everything of another span inside it. -/
theorem isBefore_of_insideIn {outer inner : Mention} (inside : inner.insideIn outer = true)
    (apart : inner.span ≠ outer.span) : outer.isBefore inner = true := by
  simp only [insideIn, Bool.and_eq_true, beq_iff_eq, decide_eq_true_eq] at inside
  obtain ⟨⟨sentence, first⟩, last⟩ := inside
  have apart : inner.start = outer.start → inner.stop ≠ outer.stop :=
    fun start stop => apart (Prod.ext start stop)
  rw [isBefore_iff]
  omega

theorem isBefore_of_sentence_lt {a b : Mention} (lt : a.sentence < b.sentence) :
    a.isBefore b = true :=
  isBefore_iff.mpr (.inl lt)

theorem documentOrder_swap (a b : Mention) : (a.documentOrder b).swap = b.documentOrder a := by
  simp only [documentOrder, Ordering.swap_then, compareKind_eq, compareNat_swap]

/-- What it takes for a comparison to put mentions with different ids into one row, the outer before
the inner. -/
structure Orders (compare : Mention → Mention → Ordering) : Prop where
  refl : ∀ a, compare a a = .eq
  swap : ∀ a b, (compare a b).swap = compare b a
  trans : ∀ a b c, compare a b = .lt → compare b c = .lt → compare a c = .lt
  total : ∀ a b, a.id ≠ b.id → compare a b = .lt ∨ compare b a = .lt
  outerFirst : ∀ outer inner, inner.insideIn outer = true → inner.span ≠ outer.span →
    compare outer inner = .lt

theorem isBefore_eq_true {a b : Mention} : a.isBefore b = true ↔ a.documentOrder b = .lt :=
  beq_iff_eq

theorem documentOrder_orders : Orders documentOrder where
  refl := by
    intro a
    simp only [documentOrder, compareKind_eq, Ordering.then_eq_eq, compareNat_eq_eq, and_self]
  swap := documentOrder_swap
  trans := by
    intro a b c
    simp only [← isBefore_eq_true]
    exact isBefore_trans
  total := by
    intro a b
    simp only [← isBefore_eq_true]
    exact isBefore_total
  outerFirst := by
    intro outer inner
    simp only [← isBefore_eq_true]
    exact isBefore_of_insideIn

/-! ## Sorting -/

/-- Whether a mention may stand in front of another in a sorted row. -/
def mayPrecede (a b : Mention) : Bool := a.documentOrder b != .gt

theorem mayPrecede_eq (a b : Mention) : a.mayPrecede b = !b.isBefore a := by
  rw [mayPrecede, isBefore, ← documentOrder_swap a b]
  cases a.documentOrder b <;> rfl

theorem mayPrecede_trans (a b c : Mention) (h : a.mayPrecede b = true)
    (h' : b.mayPrecede c = true) : a.mayPrecede c = true := by
  simp only [mayPrecede_eq, Bool.not_eq_true', Bool.eq_false_iff, Ne, isBefore_iff] at h h' ⊢
  omega

theorem mayPrecede_total (a b : Mention) : (a.mayPrecede b || b.mayPrecede a) = true := by
  simp only [mayPrecede_eq, Bool.or_eq_true, Bool.not_eq_true', Bool.eq_false_iff, Ne, isBefore_iff]
  omega

/-- Sorting mentions with different ids puts each strictly before all that follow. -/
theorem pairwise_sorted {ms : List Mention} (once : (ms.map Mention.id).Nodup) :
    (ms.mergeSort mayPrecede).Pairwise fun a b => a.isBefore b = true := by
  have sorted := List.pairwise_mergeSort mayPrecede_trans mayPrecede_total ms
  have once : ((ms.mergeSort mayPrecede).map Mention.id).Nodup :=
    ((ms.mergeSort_perm mayPrecede).map Mention.id).nodup_iff.mpr once
  refine List.Pairwise.imp₂ ?_ sorted (List.pairwise_map.mp once)
  intro a b le apart
  rw [mayPrecede_eq, Bool.not_eq_true'] at le
  exact (isBefore_total apart).resolve_right (Bool.eq_false_iff.mp le)

end Mention

end Discourse
