import Discourse.Coreference.GoldLinks
import Discourse.Proofs.Runs
import Mathlib.Data.List.Nodup
import Mathlib.Data.Prod.Lex
/-!
# Places of gold mentions

A gold mention stands in a row at a place of it, and places are compared row by row.  The search
for links looks the places up in a table and walks the list of all mentions; if every mention is
listed once the two agree, and the list is in the order of the places (`GoldOrder.Lawful`).  Then
what has been walked when the search comes to a mention is what stands before it.
-/

namespace Discourse

/-- The mention at a place of the rows. -/
def idAt? (rows : List (List MentionId)) (place : Position) : Option MentionId :=
  rows[place.1]?.bind fun row => row[place.2]?

/-- One mention of the rows stands before another, in an earlier row or earlier in the same. -/
def EarlierIn (rows : List (List MentionId)) (x y : MentionId) : Prop :=
  ∃ p q, idAt? rows p = some x ∧ idAt? rows q = some y ∧ toLex p < toLex q

theorem isEarlier_iff (p q : Position) : isEarlier p q = true ↔ toLex p < toLex q := by
  simp [isEarlier, Prod.Lex.toLex_lt_toLex]

theorem mem_withPositions_iff (rows : List (List MentionId)) (id : MentionId) (place : Position) :
    (id, place) ∈ withPositions rows ↔ idAt? rows place = some id := by
  obtain ⟨i, j⟩ := place
  simp only [withPositions, idAt?, List.mem_flatMap, List.mem_map, Prod.exists,
    List.mem_zipIdx_iff_getElem?, Option.bind_eq_some_iff, Prod.mk.injEq]
  constructor
  · rintro ⟨row, _, at_i, _, _, at_j, rfl, rfl, rfl⟩
    exact ⟨row, at_i, at_j⟩
  · rintro ⟨row, at_i, at_j⟩
    exact ⟨row, i, at_i, id, j, at_j, rfl, rfl, rfl⟩

theorem map_fst_withPositions (rows : List (List MentionId)) :
    (withPositions rows).map Prod.fst = rows.flatten := by
  rw [withPositions, List.map_flatMap, List.flatMap_def]
  refine congrArg List.flatten (Eq.trans ?_ (List.zipIdx_map_fst 0 rows))
  refine List.map_congr_left fun entry _ => ?_
  rw [List.map_map]
  exact List.zipIdx_map_fst 0 entry.1

theorem withPositions_sorted (rows : List (List MentionId)) :
    (withPositions rows).Pairwise fun e f => toLex e.2 < toLex f.2 := by
  refine List.pairwise_flatMap.mpr ⟨fun entry _ => ?_, ?_⟩
  · refine List.pairwise_map.mpr ((zipIdx_ascending entry.1).imp fun lt => ?_)
    exact Prod.Lex.toLex_lt_toLex.mpr (.inr ⟨rfl, lt⟩)
  · refine (zipIdx_ascending rows).imp fun {e f} lt => ?_
    simp only [List.mem_map]
    rintro _ ⟨_, _, rfl⟩ _ ⟨_, _, rfl⟩
    exact Prod.Lex.toLex_lt_toLex.mpr (.inl lt)

namespace GoldOrder

/-- The order of two mentions by their places. -/
def Before (order : GoldOrder) (x y : MentionId) : Prop :=
  ∃ p q, order.positions.find? x = some p ∧ order.positions.find? y = some q ∧
    toLex p < toLex q

/-- The table has the places that are listed, and they are listed in order. -/
structure Lawful (order : GoldOrder) : Prop where
  found : ∀ id place, order.positions.find? id = some place ↔ (id, place) ∈ order.listed
  sorted : order.listed.Pairwise fun e f => toLex e.2 < toLex f.2

theorem lawful_ofRows {rows : List (List MentionId)} (once : rows.flatten.Nodup) :
    (ofRows rows).Lawful where
  found := Table.find?_ofList_iff (map_fst_withPositions rows ▸ once)
  sorted := withPositions_sorted rows

theorem before_ofRows_iff {rows : List (List MentionId)} (once : rows.flatten.Nodup)
    (x y : MentionId) : (ofRows rows).Before x y ↔ EarlierIn rows x y := by
  have found : ∀ id place, (ofRows rows).positions.find? id = some place ↔
      idAt? rows place = some id := by
    intro id place
    rw [(lawful_ofRows once).found]
    exact mem_withPositions_iff rows id place
  simp only [Before, EarlierIn, found]

theorem Before.placed_left {order : GoldOrder} {x y : MentionId} (h : order.Before x y) :
    ∃ place, order.positions.find? x = some place := by
  obtain ⟨p, -, hp, -⟩ := h
  exact ⟨p, hp⟩

theorem Before.placed_right {order : GoldOrder} {x y : MentionId} (h : order.Before x y) :
    ∃ place, order.positions.find? y = some place := by
  obtain ⟨-, q, -, hq, -⟩ := h
  exact ⟨q, hq⟩

theorem Before.irrefl {order : GoldOrder} (x : MentionId) : ¬ order.Before x x := by
  rintro ⟨p, q, hp, hq, lt⟩
  cases hp.symm.trans hq
  exact lt_irrefl _ lt

theorem Before.trans {order : GoldOrder} {x y z : MentionId} (h : order.Before x y)
    (h' : order.Before y z) : order.Before x z := by
  obtain ⟨p, q, hp, hq, lt⟩ := h
  obtain ⟨q', r, hq', hr, lt'⟩ := h'
  cases hq.symm.trans hq'
  exact ⟨p, r, hp, hr, lt.trans lt'⟩

theorem Before.asymm {order : GoldOrder} {x y : MentionId} (h : order.Before x y) :
    ¬ order.Before y x :=
  fun h' => Before.irrefl x (h.trans h')

namespace Lawful

variable {order : GoldOrder}

/-- No two mentions stand at one place. -/
theorem eq_of_place_eq (law : order.Lawful) {x y : MentionId} {p : Position}
    (hx : order.positions.find? x = some p) (hy : order.positions.find? y = some p) : x = y := by
  have once : (order.listed.map Prod.snd).Nodup := by
    refine List.pairwise_map.mpr (law.sorted.imp ?_)
    intro e f lt eq
    rw [eq] at lt
    exact lt_irrefl _ lt
  exact congrArg Prod.fst (List.inj_on_of_nodup_map once ((law.found x p).mp hx)
    ((law.found y p).mp hy) rfl)

theorem before_total (law : order.Lawful) {x y : MentionId} {p q : Position}
    (hx : order.positions.find? x = some p) (hy : order.positions.find? y = some q) :
    order.Before x y ∨ x = y ∨ order.Before y x := by
  rcases lt_trichotomy (toLex p) (toLex q) with lt | eq | lt
  · exact .inl ⟨p, q, hx, hy, lt⟩
  · cases toLex.injective eq
    exact .inr (.inl (law.eq_of_place_eq hx hy))
  · exact .inr (.inr ⟨q, p, hy, hx, lt⟩)

theorem mem_ids_iff (law : order.Lawful) (id : MentionId) :
    id ∈ order.listed.map Prod.fst ↔ ∃ place, order.positions.find? id = some place := by
  simp only [List.mem_map, Prod.exists, exists_and_right, exists_eq_right, law.found]

theorem mem_flatten_iff {rows : List (List MentionId)} (once : rows.flatten.Nodup)
    (id : MentionId) :
    id ∈ rows.flatten ↔ ∃ place, (ofRows rows).positions.find? id = some place := by
  rw [← map_fst_withPositions rows]
  exact (lawful_ofRows once).mem_ids_iff id

/-- What is walked before a mention is what stands before it. -/
theorem mem_walked_iff (law : order.Lawful) {done rest : List MentionId} {x : MentionId}
    (ids : order.listed.map Prod.fst = done ++ x :: rest) (y : MentionId) :
    y ∈ done ↔ order.Before y x := by
  have ascending : (order.listed.map Prod.fst).Pairwise order.Before := by
    refine List.pairwise_map.mpr (law.sorted.imp_of_mem fun {e f} he hf lt => ?_)
    exact ⟨e.2, f.2, (law.found _ _).mpr he, (law.found _ _).mpr hf, lt⟩
  rw [ids] at ascending
  obtain ⟨-, later, earlier⟩ := List.pairwise_append.mp ascending
  constructor
  · intro mem
    exact earlier y mem x List.mem_cons_self
  · intro before
    have listed := (law.mem_ids_iff y).mpr before.placed_left
    rw [ids, List.mem_append, List.mem_cons] at listed
    rcases listed with mem | rfl | mem
    · exact mem
    · exact absurd before (Before.irrefl y)
    · exact absurd before ((List.pairwise_cons.mp later).1 y mem).asymm

theorem mem_between_iff (law : order.Lawful) {x y z : MentionId} {p q : Position}
    (hx : order.positions.find? x = some p) (hy : order.positions.find? y = some q) :
    z ∈ order.between p q ↔
      (∃ r, order.positions.find? z = some r) ∧ ¬ order.Before z x ∧ ¬ order.Before y z := by
  simp only [between, List.mem_map, List.mem_filter, Bool.and_eq_true, Bool.not_eq_true',
    ← Bool.not_eq_true, isEarlier_iff, beq_iff_eq]
  constructor
  · rintro ⟨⟨z, r⟩, ⟨-, ⟨low, high⟩, hz⟩, rfl⟩
    refine ⟨⟨r, hz⟩, ?_, ?_⟩
    · rintro ⟨r', p', hz', hx', lt⟩
      cases hz.symm.trans hz'
      cases hx.symm.trans hx'
      exact low lt
    · rintro ⟨q', r', hy', hz', lt⟩
      cases hz.symm.trans hz'
      cases hy.symm.trans hy'
      exact high lt
  · rintro ⟨⟨r, hz⟩, low, high⟩
    refine ⟨(z, r), ⟨(law.found z r).mp hz, ⟨fun lt => low ?_, fun lt => high ?_⟩, hz⟩, rfl⟩
    · exact ⟨r, p, hz, hx, lt⟩
    · exact ⟨q, r, hy, hz, lt⟩

end Lawful

end GoldOrder

end Discourse
