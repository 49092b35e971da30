import Mathlib.Data.List.Basic
import Mathlib.Data.List.Nodup
/-!
# Runs of a row

A run is a stretch of a row in which all elements have one key and that no neighbour can be added to
(`IsRun`).  A row is cut into its runs from left to right (`Cut`), and there is one way to do it: what
is listed are the runs, each once and in their order (`Cut.mem_iff`, `Cut.ordered`).  So every element
is in one of them (`Cut.exists_covering`).

Stretches need not be runs to follow one another, and then nothing lies in two of them
(`place_eq_of_disjoint`).
-/

namespace Discourse

/-! ## Places in a row -/

theorem zipIdx_ascending {α : Type} (l : List α) :
    l.zipIdx.Pairwise fun e f => e.2 < f.2 := by
  have ascending : (l.zipIdx.map Prod.snd).Pairwise (· < ·) := by
    rw [List.zipIdx_map_snd]
    exact List.pairwise_lt_range'
  exact List.pairwise_map.mp ascending

/-- Numbers in ascending order end with the largest. -/
theorem getLast?_eq_some_iff_of_ascending {row : List Nat} (ascending : row.Pairwise (· < ·))
    {k : Nat} : row.getLast? = some k ↔ k ∈ row ∧ ∀ j ∈ row, j ≤ k := by
  have largest {k : Nat} (last : row.getLast? = some k) : ∀ j ∈ row, j ≤ k := by
    obtain ⟨front, rfl⟩ := List.getLast?_eq_some_iff.mp last
    intro j mem
    rcases List.mem_append.mp mem with before | here
    · exact Nat.le_of_lt ((List.pairwise_append.mp ascending).2.2 j before k List.mem_cons_self)
    · exact Nat.le_of_eq (List.mem_singleton.mp here)
  constructor
  · exact fun last => ⟨List.mem_of_getLast? last, largest last⟩
  · rintro ⟨mem, bound⟩
    obtain ⟨l, last⟩ := Option.isSome_iff_exists.mp (List.getLast?_isSome.mpr (List.ne_nil_of_mem mem))
    rw [last, Nat.le_antisymm (bound l (List.mem_of_getLast? last)) (largest last k mem)]

/-- The last of the places of a row at which something holds. -/
theorem getLast?_places_eq_some_iff {α : Type} {p : α → Bool} {row : List α} {k : Nat} :
    ((row.zipIdx.filter fun entry => p entry.1).map Prod.snd).getLast? = some k ↔
      (∃ a, row[k]? = some a ∧ p a = true) ∧
        ∀ (later : Nat) (b : α), k < later → row[later]? = some b → p b = false := by
  have mem_iff (j : Nat) : j ∈ (row.zipIdx.filter fun entry => p entry.1).map Prod.snd ↔
      ∃ a, row[j]? = some a ∧ p a = true := by
    simp [List.mem_zipIdx_iff_getElem?]
  have ascending := ((zipIdx_ascending row).filter fun entry => p entry.1)
  rw [getLast?_eq_some_iff_of_ascending (List.pairwise_map.mpr ascending), mem_iff]
  refine and_congr_right fun _ => ⟨fun bound later b behind there => ?_, fun last j mem => ?_⟩
  · by_contra holds
    have le := bound later ((mem_iff later).mpr ⟨b, there, eq_true_of_ne_false holds⟩)
    omega
  · obtain ⟨b, there, holds⟩ := (mem_iff j).mp mem
    by_contra behind
    rw [last j b (Nat.lt_of_not_le behind) there] at holds
    cases holds

/-- What is made of the places of a row, each thing with the number of its place, is in order. -/
theorem ascending_flatMap_zipIdx {α β : Type} (l : List α) {f : α × Nat → List β} {place : β → Nat}
    (placed : ∀ e, ∀ x ∈ f e, place x = e.2) :
    (l.zipIdx.flatMap f).Pairwise fun x y => place x ≤ place y := by
  refine List.pairwise_flatMap.mpr ⟨fun e _ => ?_, (zipIdx_ascending l).imp ?_⟩
  · refine List.pairwise_of_forall_mem_list fun x mem y mem' => ?_
    exact Nat.le_of_eq ((placed e x mem).trans (placed e y mem').symm)
  · intro e f lt x mem y mem'
    rw [placed e x mem, placed f y mem']
    exact Nat.le_of_lt lt

/-- Of stretches that follow one another only one goes over a point. -/
theorem place_eq_of_disjoint {α : Type} {row : List α} {first stop : α → Nat}
    (disjoint : row.Pairwise fun a b => stop a ≤ first b) {i j point : Nat} {a b : α}
    (here : row[i]? = some a) (there : row[j]? = some b) (covers : first a ≤ point ∧ point < stop a)
    (covers' : first b ≤ point ∧ point < stop b) : i = j := by
  have apart : ∀ {i j : Nat} {a b : α}, row[i]? = some a → row[j]? = some b → i < j →
      stop a ≤ first b := by
    intro i j a b here there earlier
    obtain ⟨inside, rfl⟩ := List.getElem?_eq_some_iff.mp here
    obtain ⟨inside', rfl⟩ := List.getElem?_eq_some_iff.mp there
    exact List.pairwise_iff_getElem.mp disjoint i j inside inside' earlier
  rcases Nat.lt_trichotomy i j with earlier | same | later
  · have := apart here there earlier
    omega
  · exact same
  · have := apart there here later
    omega

/-- Of stretches that follow one another one at most goes over a point. -/
theorem countP_eq_one_of_disjoint {α : Type} {row : List α} {first stop : α → Nat}
    (disjoint : row.Pairwise fun a b => stop a ≤ first b) {a : α} {point : Nat} (mem : a ∈ row)
    (covers : first a ≤ point ∧ point < stop a) :
    row.countP (fun a => first a ≤ point ∧ point < stop a) = 1 := by
  induction row with
  | nil => cases mem
  | cons b rest ih =>
    obtain ⟨apart, disjoint⟩ := List.pairwise_cons.mp disjoint
    rcases List.mem_cons.mp mem with rfl | mem
    · have none : rest.countP (fun a => first a ≤ point ∧ point < stop a) = 0 := by
        refine List.countP_eq_zero.mpr fun c later covers' => ?_
        have := apart c later
        have := (of_decide_eq_true covers').1
        omega
      rw [List.countP_cons, none, if_pos (decide_eq_true covers)]
    · have := apart a mem
      have behind : ¬(first b ≤ point ∧ point < stop b) := by omega
      rw [List.countP_cons, ih disjoint mem, if_neg (mt of_decide_eq_true behind)]

/-! ## Runs -/

/-- From `start` up to `stop` the elements of a row have the key `k`, and the elements beside them have
another key. -/
structure IsRun {α κ : Type} (key : α → κ) (row : List α) (start stop : Nat) (k : κ) : Prop where
  nonempty : start < stop
  alike : ∀ i, start ≤ i → i < stop → row[i]?.map key = some k
  before : 0 < start → row[start - 1]?.map key ≠ some k
  after : row[stop]?.map key ≠ some k

/-- A row, the first element of which has number `i`, and its runs with their keys. -/
inductive Cut {α κ : Type} (key : α → κ) : Nat → List α → List (Nat × Nat × κ) → Prop
  | nil (i : Nat) : Cut key i [] []
  | cons {i : Nat} {k : κ} {run rest : List α} {runs : List (Nat × Nat × κ)} :
      run ≠ [] → (∀ a ∈ run, key a = k) → (∀ a ∈ rest.head?, key a ≠ k) →
      Cut key (i + run.length) rest runs → Cut key i (run ++ rest) ((i, i + run.length, k) :: runs)

section Runs

variable {α κ : Type} {key : α → κ} {row : List α} {i start stop : Nat} {k : κ}
  {runs : List (Nat × Nat × κ)}

namespace IsRun

theorem stop_le (h : IsRun key row start stop k) : stop ≤ row.length := by
  obtain ⟨a, last, -⟩ := Option.map_eq_some_iff.mp
    (h.alike (stop - 1) (Nat.le_sub_one_of_lt h.nonempty) (Nat.sub_one_lt_of_lt h.nonempty))
  have inside := (List.getElem?_eq_some_iff.mp last).1
  have nonempty := h.nonempty
  omega

/-- Runs with a common element are the same run. -/
theorem unique {start' stop' : Nat} {k' : κ} (h : IsRun key row start stop k)
    (h' : IsRun key row start' stop' k') (here : start ≤ i ∧ i < stop)
    (here' : start' ≤ i ∧ i < stop') : start = start' ∧ stop = stop' ∧ k = k' := by
  obtain rfl : k = k' := Option.some.inj
    ((h.alike i here.1 here.2).symm.trans (h'.alike i here'.1 here'.2))
  have starts : ∀ {s s' t t' : Nat}, IsRun key row s t k → IsRun key row s' t' k →
      s ≤ i → i < t' → ¬s' < s := by
    intro s s' t t' run run' le lt earlier
    exact run.before (by omega) (run'.alike (s - 1) (by omega) (by omega))
  have stops : ∀ {s s' t t' : Nat}, IsRun key row s t k → IsRun key row s' t' k →
      s' ≤ i → i < t → ¬t < t' := by
    intro s s' t t' run run' le lt later
    exact run.after (run'.alike t (by omega) later)
  have := starts h h' here.1 here'.2
  have := starts h' h here'.1 here.2
  have := stops h h' here'.1 here.2
  have := stops h' h here.1 here'.2
  exact ⟨by omega, by omega, rfl⟩

end IsRun

/-- The first run of a row with elements of another key in front. -/
theorem isRun_append {front run rest : List α} (nonempty : run ≠ []) (alike : ∀ a ∈ run, key a = k)
    (before : ∀ a ∈ front.getLast?, key a ≠ k) (after : ∀ a ∈ rest.head?, key a ≠ k) :
    IsRun key (front ++ (run ++ rest)) front.length (front.length + run.length) k where
  nonempty := Nat.lt_add_of_pos_right (List.length_pos_iff.mpr nonempty)
  alike j low high := by
    have inside : j - front.length < run.length := by omega
    rw [List.getElem?_append_right low, List.getElem?_append_left inside,
      List.getElem?_eq_getElem inside, Option.map_some, alike _ (List.getElem_mem inside)]
  before first := by
    rw [List.getElem?_append_left (Nat.sub_one_lt_of_lt first), ← List.getLast?_eq_getElem?]
    intro same
    obtain ⟨a, last, same⟩ := Option.map_eq_some_iff.mp same
    exact before a last same
  after := by
    rw [← List.append_assoc, List.getElem?_append_right (by simp), List.length_append, Nat.sub_self,
      ← List.head?_eq_getElem?]
    intro same
    obtain ⟨a, next, same⟩ := Option.map_eq_some_iff.mp same
    exact after a next same

namespace Cut

/-- The runs of a row that goes on behind other elements are its runs from there on. -/
theorem mem_iff_append (cut : Cut key i row runs) {front : List α} (length : front.length = i)
    (apart : ∀ a ∈ front.getLast?, ∀ b ∈ row.head?, key a ≠ key b) :
    (start, stop, k) ∈ runs ↔ i ≤ start ∧ IsRun key (front ++ row) start stop k := by
  induction cut generalizing front with
  | nil i =>
    refine ⟨fun mem => absurd mem List.not_mem_nil, fun ⟨behind, run⟩ => ?_⟩
    have inside := run.stop_le
    have nonempty := run.nonempty
    rw [List.append_nil] at inside
    omega
  | @cons i k' run rest runs nonempty alike after _ ih =>
    have before : ∀ a ∈ front.getLast?, key a ≠ k' := by
      intro a last
      obtain ⟨b, run, rfl⟩ := List.exists_cons_of_ne_nil nonempty
      rw [← alike b List.mem_cons_self]
      exact apart a last b rfl
    have first := isRun_append nonempty alike before after
    rw [length] at first
    have ih := @ih (front ++ run) (by rw [List.length_append, length]) (by
      intro a last b next
      rw [List.getLast?_append_of_ne_nil _ nonempty] at last
      rw [alike a (List.mem_of_getLast? last)]
      exact (after b next).symm)
    rw [List.append_assoc] at ih
    rw [List.mem_cons, ih]
    constructor
    · rintro (same | ⟨behind, isRun⟩)
      · cases same
        exact ⟨Nat.le_refl start, first⟩
      · exact ⟨by omega, isRun⟩
    · rintro ⟨behind, isRun⟩
      by_cases within : start < i + run.length
      · obtain ⟨rfl, rfl, rfl⟩ := first.unique isRun ⟨behind, within⟩
          ⟨Nat.le_refl start, isRun.nonempty⟩
        exact .inl rfl
      · exact .inr ⟨by omega, isRun⟩

theorem mem_iff (cut : Cut key 0 row runs) :
    (start, stop, k) ∈ runs ↔ IsRun key row start stop k := by
  rw [cut.mem_iff_append (List.length_nil : ([] : List α).length = 0) (by simp), List.nil_append]
  simp

theorem le_of_mem (cut : Cut key i row runs) : ∀ r ∈ runs, i ≤ r.1 := by
  induction cut with
  | nil => exact fun r mem => absurd mem List.not_mem_nil
  | cons _ _ _ _ ih =>
    refine List.forall_mem_cons.mpr ⟨Nat.le_refl _, fun r mem => ?_⟩
    have later := ih r mem
    omega

/-- The runs follow one another. -/
theorem ordered (cut : Cut key i row runs) : runs.Pairwise fun r r' => r.2.1 ≤ r'.1 := by
  induction cut with
  | nil => exact List.Pairwise.nil
  | cons _ _ _ rest ih => exact List.pairwise_cons.mpr ⟨rest.le_of_mem, ih⟩

/-- Every element is in a run. -/
theorem exists_covering (cut : Cut key i row runs) {place : Nat} (behind : i ≤ place)
    (inside : place < i + row.length) : ∃ r ∈ runs, r.1 ≤ place ∧ place < r.2.1 := by
  induction cut with
  | nil i =>
    rw [List.length_nil] at inside
    omega
  | @cons i _ run rest _ _ _ _ _ ih =>
    rw [List.length_append] at inside
    by_cases within : place < i + run.length
    · exact ⟨_, List.mem_cons_self, behind, within⟩
    · obtain ⟨r, mem, covers⟩ := ih (by omega) (by omega)
      exact ⟨r, List.mem_cons_of_mem _ mem, covers⟩

section Search

variable {β : Type} [DecidableEq κ] {f : Nat → Nat → Option β}

/-- The first run with a key that has a value decides for the key. -/
theorem findSome?_of_first (cut : Cut key 0 row runs) {b : β} (run : IsRun key row start stop k)
    (value : f start stop = some b)
    (before : ∀ start' stop', IsRun key row start' stop' k → start' < start →
      f start' stop' = none) :
    runs.findSome? (fun r => if r.2.2 = k then f r.1 r.2.1 else none) = some b := by
  obtain ⟨front, back, split⟩ := List.append_of_mem (cut.mem_iff.mpr run)
  have none : front.findSome? (fun r => if r.2.2 = k then f r.1 r.2.1 else none) = Option.none := by
    rw [List.findSome?_eq_none_iff]
    intro r earlier
    split
    next same =>
      have run' := cut.mem_iff.mp (split ▸ List.mem_append_left _ earlier : (r.1, r.2.1, r.2.2) ∈ runs)
      have ordered := (List.pairwise_append.mp (split ▸ cut.ordered)).2.2 r earlier _
        List.mem_cons_self
      exact before _ _ (same ▸ run') (Nat.lt_of_lt_of_le run'.nonempty ordered)
    next => rfl
  rw [split, List.findSome?_append, none, List.findSome?_cons, if_pos rfl, value]
  rfl

theorem findSome?_eq_none (cut : Cut key 0 row runs)
    (none : ∀ start stop, IsRun key row start stop k → f start stop = none) :
    runs.findSome? (fun r => if r.2.2 = k then f r.1 r.2.1 else .none) = .none := by
  rw [List.findSome?_eq_none_iff]
  intro r mem
  split
  next same => exact none _ _ (same ▸ cut.mem_iff.mp mem)
  next => rfl

end Search

end Cut

end Runs

end Discourse
