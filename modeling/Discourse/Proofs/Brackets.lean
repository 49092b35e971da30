import Mathlib.Data.List.Basic
/-!
# Brackets that match

Two letters of a row are taken for an opening and a closing bracket.  The row is balanced if no
front of it closes more brackets than it opens and the whole closes as many, and two places match if
a bracket is opened at the one and closed at the other with a balanced row between them.  Both are
said without a stack.

A scan with a stack of open places (`Scanned`) finds the matching places in the order in which they
are closed.  What it leaves on the stack are the brackets that are still to be closed (`Unclosed`),
so that it comes to an end with an empty stack exactly on the balanced rows.
-/

namespace Discourse

section Brackets

variable {α : Type} [DecidableEq α]

/-- No front of a row closes more brackets than it opens, and the whole closes as many. -/
structure Balanced (o c : α) (row : List α) : Prop where
  inside : ∀ front, front <+: row → front.count c ≤ front.count o
  closed : row.count o = row.count c

/-- The bracket that a row opens at the place `p` is closed at the place `q`. -/
def Matched (o c : α) (row : List α) (p q : Nat) : Prop :=
  ∃ front inner back, row = front ++ o :: (inner ++ c :: back) ∧ front.length = p ∧
    p + inner.length + 1 = q ∧ Balanced o c inner

/-- The pairs are the places of the brackets that match, in the order in which they are closed, and
every bracket that is opened is in just one of them. -/
structure IsMatching (o c : α) (row : List α) (pairs : List (Nat × Nat)) : Prop where
  ascending : pairs.Pairwise fun first second => first.2 < second.2
  mem_iff (p q : Nat) : (p, q) ∈ pairs ↔ Matched o c row p q
  opened (p : Nat) : row[p]? = some o → ∃! q, (p, q) ∈ pairs
  length : pairs.length = row.count o

/-- The places of the brackets that a row opens and does not close, the innermost first. -/
inductive Unclosed (o c : α) : List α → List Nat → Prop
  | level {row} : Balanced o c row → Unclosed o c row []
  | opened {front inner places} : Unclosed o c front places → Balanced o c inner →
      Unclosed o c (front ++ o :: inner) (front.length :: places)

/-- A scan of a row with a stack: the places on the stack, and the pairs that have been taken off it
so far. -/
inductive Scanned (o c : α) : List α → List Nat → List (Nat × Nat) → Prop
  | nil : Scanned o c [] [] []
  | opening {row places pairs} : Scanned o c row places pairs →
      Scanned o c (row ++ [o]) (row.length :: places) pairs
  | closing {row p places pairs} : Scanned o c row (p :: places) pairs →
      Scanned o c (row ++ [c]) places (pairs ++ [(p, row.length)])
  | other {row places pairs x} : x ≠ o → x ≠ c → Scanned o c row places pairs →
      Scanned o c (row ++ [x]) places pairs

variable {o c : α} {row row' : List α} {p q p' q' n : Nat} {places : List Nat}
  {pairs : List (Nat × Nat)}

theorem count_singleton_of_ne {x y : α} (other : x ≠ y) : [x].count y = 0 := by
  simp [other]

/-! ## Balanced rows -/

theorem Balanced.nil : Balanced o c [] where
  inside := by
    intro front within
    rw [List.prefix_nil.mp within]
    exact Nat.le_refl _
  closed := rfl

theorem Balanced.single {x : α} (noOpening : x ≠ o) (noClosing : x ≠ c) : Balanced o c [x] where
  inside := by
    intro front within
    have none := within.sublist.count_le c
    rw [count_singleton_of_ne noClosing] at none
    exact Nat.le_trans none (Nat.zero_le _)
  closed := by rw [count_singleton_of_ne noOpening, count_singleton_of_ne noClosing]

theorem Balanced.append (h : Balanced o c row) (h' : Balanced o c row') :
    Balanced o c (row ++ row') where
  inside := by
    rintro front ⟨back, split⟩
    rcases List.append_eq_append_iff.mp split with ⟨mid, rfl, -⟩ | ⟨mid, rfl, rfl⟩
    · exact h.inside front (List.prefix_append front mid)
    · have closed := h.closed
      have later := h'.inside mid (List.prefix_append mid back)
      rw [List.count_append, List.count_append]
      omega
  closed := by rw [List.count_append, List.count_append, h.closed, h'.closed]

theorem Balanced.bracket (distinct : o ≠ c) (h : Balanced o c row) :
    Balanced o c (o :: (row ++ [c])) where
  inside := by
    intro front within
    rcases List.prefix_cons_iff.mp within with rfl | ⟨rest, rfl, later⟩
    · exact Nat.le_refl _
    rw [List.count_cons_self, List.count_cons_of_ne distinct]
    rcases List.prefix_concat_iff.mp later with rfl | before
    · rw [List.count_append, List.count_append, List.count_singleton_self, h.closed]
      omega
    · have before := h.inside rest before
      omega
  closed := by
    have closed := h.closed
    simp [List.count_append, distinct, distinct.symm, closed]

/-! ## Matching places -/

/-- How many more brackets a row opens than it closes before a place. -/
def depth (o c : α) (row : List α) (n : Nat) : Int := (row.take n).count o - (row.take n).count c

namespace Matched

theorem lt (h : Matched o c row p q) : p < q := by
  obtain ⟨front, inner, back, rfl, rfl, rfl, -⟩ := h
  omega

theorem opening (h : Matched o c row p q) : row[p]? = some o := by
  obtain ⟨front, inner, back, rfl, rfl, rfl, -⟩ := h
  simp

theorem append (h : Matched o c row p q) (more : List α) : Matched o c (row ++ more) p q := by
  obtain ⟨front, inner, back, rfl, first, last, balanced⟩ := h
  refine ⟨front, inner, back ++ more, ?_, first, last, balanced⟩
  simp only [List.append_assoc, List.cons_append]

/-- The depth is the same in front of a bracket and behind it. -/
theorem depth_closed (distinct : o ≠ c) (h : Matched o c row p q) :
    depth o c row (q + 1) = depth o c row p := by
  obtain ⟨front, inner, back, rfl, rfl, rfl, balanced⟩ := h
  have closed := balanced.closed
  have upTo : (front ++ o :: (inner ++ c :: back)).take (front.length + inner.length + 1 + 1) =
      front ++ o :: (inner ++ [c]) := by
    rw [Nat.add_assoc, Nat.add_assoc, List.take_length_add_append, List.take_succ_cons,
      List.take_length_add_append, List.take_succ_cons, List.take_zero]
  rw [depth, depth, List.take_left, upTo]
  simp only [List.count_append, List.count_cons_self, List.count_cons_of_ne distinct,
    List.count_cons_of_ne distinct.symm, List.count_nil, closed]
  omega

theorem depth_inside (distinct : o ≠ c) (h : Matched o c row p q) (behind : p < n)
    (before : n ≤ q) : depth o c row p < depth o c row n := by
  obtain ⟨front, inner, back, rfl, rfl, rfl, balanced⟩ := h
  obtain ⟨k, rfl⟩ : ∃ k, n = front.length + (k + 1) := ⟨n - front.length - 1, by omega⟩
  have within := balanced.inside (inner.take k) (List.take_prefix k inner)
  have upTo : (front ++ o :: (inner ++ c :: back)).take (front.length + (k + 1)) =
      front ++ o :: inner.take k := by
    rw [List.take_length_add_append, List.take_succ_cons, List.take_append_of_le_length (by omega)]
  rw [depth, depth, List.take_left, upTo]
  simp only [List.count_append, List.count_cons_self, List.count_cons_of_ne distinct]
  omega

theorem stop_unique (distinct : o ≠ c) (h : Matched o c row p q) (h' : Matched o c row p q') :
    q = q' := by
  have later : ∀ {q q'}, Matched o c row p q → Matched o c row p q' → ¬q < q' := by
    intro q q' h h' earlier
    have same := h.depth_closed distinct
    have deeper := h'.depth_inside distinct (Nat.lt_add_one_of_lt h.lt) earlier
    omega
  have := later h h'
  have := later h' h
  omega

/-- Of two brackets one lies in the other, or it is over before the other begins. -/
theorem nested_or_apart (distinct : o ≠ c) (h : Matched o c row p q) (h' : Matched o c row p' q')
    (earlier : q' < q) : p < p' ∨ q' < p := by
  by_contra crossing
  have le : p' ≠ p := by
    rintro rfl
    exact Nat.ne_of_lt earlier (h'.stop_unique distinct h)
  have closed := h'.depth_closed distinct
  have deeper := h'.depth_inside distinct (by omega : p' < p) (by omega)
  have deeper' := h.depth_inside distinct (by omega : p < q' + 1) earlier
  omega

end Matched

/-! ## Brackets that are not closed -/

namespace Unclosed

theorem count_eq (distinct : o ≠ c) (h : Unclosed o c row places) :
    row.count o = row.count c + places.length := by
  induction h with
  | level balanced => exact balanced.closed
  | opened _ balanced ih =>
    have closed := balanced.closed
    rw [List.count_append, List.count_append, List.count_cons_self,
      List.count_cons_of_ne distinct, List.length_cons]
    omega

theorem append (h : Unclosed o c row places) (balanced : Balanced o c row') :
    Unclosed o c (row ++ row') places := by
  cases h with
  | level level => exact .level (level.append balanced)
  | opened before inner =>
    rw [List.append_assoc, List.cons_append]
    exact .opened before (inner.append balanced)

/-- The innermost of the brackets is closed by a closing bracket. -/
theorem close (distinct : o ≠ c) (h : Unclosed o c row (p :: places)) :
    Matched o c (row ++ [c]) p row.length ∧ Unclosed o c (row ++ [c]) places := by
  cases h with
  | @opened front inner _ before balanced =>
    constructor
    · refine ⟨front, inner, [], ?_, rfl, ?_, balanced⟩
      · rw [List.append_assoc, List.cons_append]
      · rw [List.length_append, List.length_cons, Nat.add_assoc]
    · rw [List.append_assoc, List.cons_append]
      exact before.append (balanced.bracket distinct)

theorem balanced (h : Unclosed o c row []) : Balanced o c row := by
  cases h with
  | level balanced => exact balanced

end Unclosed

/-! ## The scan -/

namespace Scanned

theorem unclosed (distinct : o ≠ c) (h : Scanned o c row places pairs) :
    Unclosed o c row places := by
  induction h with
  | nil => exact .level .nil
  | opening _ ih => exact .opened ih .nil
  | closing _ ih => exact (ih.close distinct).2
  | other noOpening noClosing _ ih => exact ih.append (.single noOpening noClosing)

theorem matched (distinct : o ≠ c) (h : Scanned o c row places pairs) :
    ∀ pair ∈ pairs, Matched o c row pair.1 pair.2 := by
  induction h with
  | nil => exact fun pair mem => absurd mem List.not_mem_nil
  | opening _ ih | other _ _ _ ih => exact fun pair mem => (ih pair mem).append _
  | closing before ih =>
    intro pair mem
    rcases List.mem_append.mp mem with mem | mem
    · exact (ih pair mem).append _
    · rw [List.mem_singleton.mp mem]
      exact ((before.unclosed distinct).close distinct).1

omit [DecidableEq α] in
theorem ascending (h : Scanned o c row places pairs) :
    pairs.Pairwise (fun first second => first.2 < second.2) ∧
      ∀ pair ∈ pairs, pair.2 < row.length := by
  induction h with
  | nil => exact ⟨.nil, fun pair mem => absurd mem List.not_mem_nil⟩
  | opening _ ih | other _ _ _ ih =>
    refine ⟨ih.1, fun pair mem => ?_⟩
    rw [List.length_append]
    exact Nat.lt_add_right 1 (ih.2 pair mem)
  | closing _ ih =>
    constructor
    · refine List.pairwise_append.mpr ⟨ih.1, List.pairwise_singleton _ _, ?_⟩
      intro pair mem last here
      rw [List.mem_singleton.mp here]
      exact ih.2 pair mem
    · intro pair mem
      rw [List.length_append]
      rcases List.mem_append.mp mem with mem | mem
      · exact Nat.lt_add_right 1 (ih.2 pair mem)
      · rw [List.mem_singleton.mp mem]
        exact Nat.lt_succ_self _

omit [DecidableEq α] in
/-- Every bracket that has been opened is on the stack or has been taken off it. -/
theorem opened (distinct : o ≠ c) (h : Scanned o c row places pairs) (here : row[p]? = some o) :
    p ∈ places ∨ ∃ q, (p, q) ∈ pairs := by
  -- the last letter is looked at only where it is a new place
  have earlier : ∀ {row : List α} {x : α}, (row ++ [x])[p]? = some o →
      row[p]? = some o ∨ p = row.length ∧ x = o := by
    intro row x here
    rw [List.getElem?_append] at here
    split at here
    next => exact .inl here
    next beyond =>
      rw [List.getElem?_singleton] at here
      split at here
      next last => exact .inr ⟨by omega, Option.some.inj here⟩
      next => cases here
  induction h with
  | nil => cases here
  | opening _ ih =>
    rcases earlier here with before | ⟨rfl, -⟩
    · exact (ih before).imp_left (List.mem_cons_of_mem _)
    · exact .inl List.mem_cons_self
  | @closing row top places pairs _ ih =>
    rcases earlier here with before | ⟨-, same⟩
    · rcases ih before with mem | ⟨q, mem⟩
      · rcases List.mem_cons.mp mem with rfl | mem
        · exact .inr ⟨row.length, List.mem_append_right _ List.mem_cons_self⟩
        · exact .inl mem
      · exact .inr ⟨q, List.mem_append_left _ mem⟩
    · exact absurd same.symm distinct
  | other noOpening _ _ ih =>
    rcases earlier here with before | ⟨-, same⟩
    · exact ih before
    · exact absurd same noOpening

theorem length_add_length (distinct : o ≠ c) (h : Scanned o c row places pairs) :
    pairs.length + places.length = row.count o := by
  induction h with
  | nil => rfl
  | opening _ ih =>
    rw [List.count_append, List.count_singleton_self, List.length_cons, ← Nat.add_assoc, ih]
  | closing _ ih =>
    rw [List.count_append, count_singleton_of_ne distinct.symm, List.length_append, Nat.add_assoc,
      Nat.add_zero, ← ih]
    exact congrArg _ (Nat.add_comm _ _)
  | other noOpening _ _ ih =>
    rw [List.count_append, count_singleton_of_ne noOpening, ih, Nat.add_zero]

theorem balanced_iff (distinct : o ≠ c) (h : Scanned o c row places pairs) :
    Balanced o c row ↔ places = [] := by
  have unclosed := h.unclosed distinct
  constructor
  · intro balanced
    have count := unclosed.count_eq distinct
    rw [balanced.closed] at count
    exact List.length_eq_zero_iff.mp (by omega)
  · rintro rfl
    exact unclosed.balanced

/-- Nothing that is put behind a bracket too many brings the balance back. -/
theorem not_balanced_append (distinct : o ≠ c) (h : Scanned o c row [] pairs) (more : List α) :
    ¬Balanced o c (row ++ c :: more) := by
  intro balanced
  have closed := ((h.balanced_iff distinct).mpr rfl).closed
  have inside := balanced.inside (row ++ [c]) ⟨more, by simp⟩
  rw [List.count_append, List.count_append, List.count_singleton_self,
    count_singleton_of_ne distinct.symm, closed] at inside
  omega

/-- A scan that ends with an empty stack has found the matching places. -/
theorem isMatching (distinct : o ≠ c) (h : Scanned o c row [] pairs) :
    IsMatching o c row pairs := by
  have matched := h.matched distinct
  have opened : ∀ p, row[p]? = some o → ∃ q, (p, q) ∈ pairs := fun p here =>
    (h.opened distinct here).resolve_left List.not_mem_nil
  refine ⟨h.ascending.1, fun p q => ⟨matched (p, q), fun m => ?_⟩, fun p here => ?_,
    h.length_add_length distinct⟩
  · obtain ⟨q', mem⟩ := opened p m.opening
    rw [m.stop_unique distinct (matched _ mem)]
    exact mem
  · obtain ⟨q, mem⟩ := opened p here
    exact ⟨q, mem, fun q' mem' => (matched _ mem').stop_unique distinct (matched _ mem)⟩

end Scanned

end Brackets

end Discourse
