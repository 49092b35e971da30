import Discourse.Proofs.Column.Writing
import Mathlib.Data.List.Basic
/-!
# Spans read back

Spans that were written into a column are read back from it (`labelledSpans_writes`), whatever the
order of the pieces within a value, as long as two spans of one label are nested or disjoint.  Spans
of different labels may cross.

The column does not say which of the open spans of a label a closing bracket ends; the innermost is
taken, the one that started last.  While a column is read, spans are in three places: begun, ahead,
or closed (`ColumnState.Between`, `ColumnState.Within`).  That the span closed is one of those that
end at the token is `Within.exists_closed`, the only place where nesting matters.
-/

namespace Discourse

namespace LabelledSpan

/-- One of two spans lies in the other, or they have no token in common. -/
def NestedOrDisjoint (s t : LabelledSpan) : Prop :=
  t.start ≤ s.start ∧ s.stop ≤ t.stop ∨ s.start ≤ t.start ∧ t.stop ≤ s.stop ∨
    s.stop ≤ t.start ∨ t.stop ≤ s.start

instance (s t : LabelledSpan) : Decidable (s.NestedOrDisjoint t) :=
  inferInstanceAs (Decidable (_ ∨ _ ∨ _ ∨ _))

/-- What is written at a token of a span that is still to start there. -/
def beginning? (token : Nat) (s : LabelledSpan) : Option ColumnPiece :=
  if s.start = token then
    some (if s.stop = token + 1 then .single s.label else .opening s.label)
  else none

/-- What is written at a token of a span that has started before. -/
def ending? (token : Nat) (s : LabelledSpan) : Option ColumnPiece :=
  if s.stop = token + 1 then some (.closing s.label) else none

/-- What is written of a span at a token. -/
def piece? (token : Nat) (s : LabelledSpan) : Option ColumnPiece :=
  if s.start = token then s.beginning? token else s.ending? token

end LabelledSpan

/-- Spans that can be written into a column of `n` values. -/
structure WritableSpans (n : Nat) (spans : List LabelledSpan) : Prop where
  inside : ∀ s ∈ spans, s.start < s.stop ∧ s.stop ≤ n
  labels : ∀ s ∈ spans, IsLabel s.label
  nested : ∀ s ∈ spans, ∀ t ∈ spans, s.label = t.label → s.NestedOrDisjoint t

/-- A value has the pieces of all spans at a token, in some order. -/
def IsValueAt (spans : List LabelledSpan) (token : Nat) (value : String) : Prop :=
  ∃ pieces : List ColumnPiece, pieces.Perm (spans.filterMap (LabelledSpan.piece? token)) ∧
    value = columnValue coreferenceStyle.marker pieces

/-- A column of `n` values has the pieces of all spans at their tokens. -/
structure WritesSpans (n : Nat) (spans : List LabelledSpan) (values : List String) : Prop where
  length : values.length = n
  values : ∀ token value, values[token]? = some value → IsValueAt spans token value

theorem exists_perm_of_mem_filterMap {α β : Type} {f : α → Option β} {xs : List α} {b : β}
    (mem : b ∈ xs.filterMap f) : ∃ a rest, xs.Perm (a :: rest) ∧ f a = some b := by
  obtain ⟨a, mem, here⟩ := List.mem_filterMap.mp mem
  obtain ⟨pre, post, rfl⟩ := List.append_of_mem mem
  exact ⟨a, pre ++ post, List.perm_middle, here⟩

namespace LabelledSpan

variable {token : Nat} {s : LabelledSpan} {label : String}

theorem beginning?_eq_some_iff {p : ColumnPiece} :
    s.beginning? token = some p ↔
      s.start = token ∧ p = if s.stop = token + 1 then .single s.label else .opening s.label := by
  rw [beginning?, Option.ite_none_right_eq_some, Option.some.injEq, eq_comm (b := p)]

theorem ending?_eq_some_iff {p : ColumnPiece} :
    s.ending? token = some p ↔ s.stop = token + 1 ∧ p = .closing s.label := by
  rw [ending?, Option.ite_none_right_eq_some, Option.some.injEq, eq_comm (b := p)]

theorem beginning?_eq_opening_iff :
    s.beginning? token = some (.opening label) ↔
      s.start = token ∧ s.stop ≠ token + 1 ∧ s.label = label := by
  rw [beginning?_eq_some_iff]
  split <;> simp_all [eq_comm]

theorem beginning?_eq_single_iff :
    s.beginning? token = some (.single label) ↔ s = ⟨token, token + 1, label⟩ := by
  obtain ⟨start, stop, name⟩ := s
  rw [beginning?_eq_some_iff]
  split <;> simp_all [eq_comm]

theorem beginning?_ne_closing : s.beginning? token ≠ some (.closing label) := by
  rw [Ne, beginning?_eq_some_iff]
  split <;> simp

theorem label_of_piece? {p : ColumnPiece} (here : s.piece? token = some p) : p.label = s.label := by
  unfold piece? at here
  split at here
  · obtain ⟨-, rfl⟩ := beginning?_eq_some_iff.mp here
    split <;> rfl
  · obtain ⟨-, rfl⟩ := ending?_eq_some_iff.mp here
    rfl

end LabelledSpan

namespace ColumnState

/-- The spans are begun, ahead or closed, and those begun are open in the order in which they
started. -/
structure Sorts (spans : List LabelledSpan) (st : ColumnState) (begun ahead : List LabelledSpan) :
    Prop where
  all : (begun ++ ahead ++ st.done).Perm spans
  pending : st.pending.Perm (begun.map fun s => (s.start, s.label))
  innermost : st.pending.Pairwise fun p q => q.1 ≤ p.1

/-- A column read up to a token. -/
structure Between (spans : List LabelledSpan) (token : Nat) (st : ColumnState)
    (begun ahead : List LabelledSpan) : Prop extends Sorts spans st begun ahead where
  started : ∀ s ∈ begun, s.start < token ∧ token < s.stop
  waiting : ∀ s ∈ ahead, token ≤ s.start
  ended : ∀ s ∈ st.done, s.stop ≤ token

/-- A column read up to some piece of the value of a token, with the pieces left. -/
structure Within (spans : List LabelledSpan) (token : Nat) (left : List ColumnPiece)
    (st : ColumnState) (begun ahead : List LabelledSpan) : Prop
    extends Sorts spans st begun ahead where
  started : ∀ s ∈ begun, s.start ≤ token ∧ token < s.stop
  waiting : ∀ s ∈ ahead, token ≤ s.start
  ended : ∀ s ∈ st.done, s.stop ≤ token + 1
  left : left.Perm (begun.filterMap (LabelledSpan.ending? token) ++
    ahead.filterMap (LabelledSpan.beginning? token))

variable {spans begun ahead : List LabelledSpan} {n token : Nat} {st : ColumnState}
  {left : List ColumnPiece}

/-! ## One piece -/

namespace Within

variable {label : String}

theorem perm (h : Within spans token left st begun ahead) {begun' ahead' : List LabelledSpan}
    (begun_perm : begun.Perm begun') (ahead_perm : ahead.Perm ahead') :
    Within spans token left st begun' ahead' where
  all := ((begun_perm.append ahead_perm).append_right st.done).symm.trans h.all
  pending := h.pending.trans (begun_perm.map _)
  innermost := h.innermost
  started s mem := h.started s (begun_perm.mem_iff.mpr mem)
  waiting s mem := h.waiting s (ahead_perm.mem_iff.mpr mem)
  ended := h.ended
  left := h.left.trans ((begun_perm.filterMap _).append (ahead_perm.filterMap _))

/-- An opening bracket begins one of the spans ahead. -/
theorem opening (h : Within spans token (.opening label :: left) st begun ahead)
    (inside : ∀ s ∈ spans, s.start < s.stop) :
    ∃ begun' ahead', Within spans token left (st.opened token label) begun' ahead' := by
  have listed := h.left.mem_iff.mp List.mem_cons_self
  obtain ⟨s, rest, perm, here⟩ : ∃ s rest, ahead.Perm (s :: rest) ∧
      s.beginning? token = some (.opening label) := by
    rcases List.mem_append.mp listed with ends | begins
    · obtain ⟨s, -, here⟩ := List.mem_filterMap.mp ends
      cases (LabelledSpan.ending?_eq_some_iff.mp here).2
    · exact exists_perm_of_mem_filterMap begins
  have h := h.perm (.refl begun) perm
  obtain ⟨starts, longer, rfl⟩ := LabelledSpan.beginning?_eq_opening_iff.mp here
  have proper := inside s (h.all.mem_iff.mp (by simp))
  have stays : s.ending? token = none := if_neg longer
  have left' := h.left
  rw [List.filterMap_cons_some here] at left'
  refine ⟨s :: begun, rest, ⟨?_, ?_, ?_⟩, ?_, ?_, h.ended, ?_⟩
  · exact (List.perm_middle.symm.append_right st.done).trans h.all
  · rw [List.map_cons, starts]
    exact h.pending.cons _
  · refine List.pairwise_cons.mpr ⟨fun q mem => ?_, h.innermost⟩
    obtain ⟨t, isBegun, rfl⟩ := List.mem_map.mp (h.pending.mem_iff.mp mem)
    exact (h.started t isBegun).1
  · exact List.forall_mem_cons.mpr ⟨⟨by omega, by omega⟩, h.started⟩
  · exact (List.forall_mem_cons.mp h.waiting).2
  · rw [List.filterMap_cons_none stays]
    exact (left'.trans List.perm_middle).cons_inv

/-- The piece of one token closes one of the spans ahead. -/
theorem single (h : Within spans token (.single label :: left) st begun ahead) :
    ∃ ahead', Within spans token left
      { st with done := ⟨token, token + 1, label⟩ :: st.done } begun ahead' := by
  have listed := h.left.mem_iff.mp List.mem_cons_self
  obtain ⟨s, rest, perm, here⟩ : ∃ s rest, ahead.Perm (s :: rest) ∧
      s.beginning? token = some (.single label) := by
    rcases List.mem_append.mp listed with ends | begins
    · obtain ⟨s, -, here⟩ := List.mem_filterMap.mp ends
      cases (LabelledSpan.ending?_eq_some_iff.mp here).2
    · exact exists_perm_of_mem_filterMap begins
  have h := h.perm (.refl begun) perm
  obtain rfl := LabelledSpan.beginning?_eq_single_iff.mp here
  have left' := h.left
  rw [List.filterMap_cons_some here] at left'
  refine ⟨rest, ⟨?_, h.pending, h.innermost⟩, h.started, (List.forall_mem_cons.mp h.waiting).2,
    List.forall_mem_cons.mpr ⟨Nat.le_refl _, h.ended⟩, (left'.trans List.perm_middle).cons_inv⟩
  refine List.Perm.trans ?_ h.all
  rw [List.append_assoc, List.append_assoc, List.cons_append]
  exact List.perm_middle.append_left begun

/-- Of the spans begun with a label of which one ends at the token, the one that started last ends
there, too. -/
theorem exists_closed (h : Within spans token left st begun ahead)
    (nested : ∀ s ∈ spans, ∀ t ∈ spans, s.label = t.label → s.NestedOrDisjoint t)
    {y : LabelledSpan} (isBegun : y ∈ begun) (ends : y.stop = token + 1)
    {outer inner : List (Nat × String)} {start : Nat}
    (split : st.pending = inner ++ (start, y.label) :: outer)
    (other : ∀ p ∈ inner, p.2 ≠ y.label) :
    ∃ rest, begun.Perm (⟨start, token + 1, y.label⟩ :: rest) := by
  have known (s : LabelledSpan) (mem : s ∈ begun) : s ∈ spans := h.all.mem_iff.mp (by simp [mem])
  have listed : (start, y.label) ∈ begun.map fun s => (s.start, s.label) :=
    h.pending.mem_iff.mp (by simp [split])
  obtain ⟨z, isBegun', same⟩ := List.mem_map.mp listed
  obtain ⟨rfl, label⟩ := Prod.mk.inj same
  -- `y` itself stands at the last start of its label or further out
  have later : y.start ≤ z.start := by
    have mem : (y.start, y.label) ∈ st.pending :=
      h.pending.mem_iff.mpr (List.mem_map.mpr ⟨y, isBegun, rfl⟩)
    rw [split, List.mem_append, List.mem_cons] at mem
    rcases mem with inside | same | outside
    · exact absurd rfl (other _ inside)
    · exact Nat.le_of_eq (Prod.mk.inj same).1
    · have sorted := h.innermost
      rw [split] at sorted
      exact (List.pairwise_cons.mp (List.pairwise_append.mp sorted).2.1).1 _ outside
  obtain ⟨-, stop_z⟩ := h.started z isBegun'
  obtain ⟨start_y, stop_y⟩ := h.started y isBegun
  obtain ⟨start_z, -⟩ := h.started z isBegun'
  have ending : (⟨z.start, token + 1, y.label⟩ : LabelledSpan) ∈ begun := by
    have apart := nested y (known y isBegun) z (known z isBegun') label.symm
    by_cases same : z.stop = token + 1
    · rwa [← label, ← same]
    · have starts : z.start = y.start := by
        unfold LabelledSpan.NestedOrDisjoint at apart
        omega
      rwa [starts, ← ends]
  obtain ⟨pre, post, rfl⟩ := List.append_of_mem ending
  exact ⟨pre ++ post, List.perm_middle⟩

/-- A closing bracket closes one of the spans begun. -/
theorem closing (h : Within spans token (.closing label :: left) st begun ahead)
    (nested : ∀ s ∈ spans, ∀ t ∈ spans, s.label = t.label → s.NestedOrDisjoint t) :
    ∃ st' begun', st.close? token (fun span => span.2 == label) = some st' ∧
      Within spans token left st' begun' ahead := by
  have listed := h.left.mem_iff.mp List.mem_cons_self
  obtain ⟨y, isBegun, here⟩ : ∃ y ∈ begun, y.ending? token = some (.closing label) := by
    rcases List.mem_append.mp listed with ends | begins
    · exact List.mem_filterMap.mp ends
    · obtain ⟨s, -, here⟩ := List.mem_filterMap.mp begins
      exact absurd here LabelledSpan.beginning?_ne_closing
  obtain ⟨ends, same⟩ := LabelledSpan.ending?_eq_some_iff.mp here
  cases same
  have mem : (y.start, y.label) ∈ st.pending :=
    h.pending.mem_iff.mpr (List.mem_map.mpr ⟨y, isBegun, rfl⟩)
  have found : (st.pending.find? fun span => span.2 == y.label).isSome = true :=
    List.find?_isSome.mpr ⟨_, mem, beq_self_eq_true y.label⟩
  obtain ⟨⟨start, label⟩, found⟩ := Option.isSome_iff_exists.mp found
  obtain ⟨named, inner, outer, split, other⟩ := List.find?_eq_some_iff_append.mp found
  obtain rfl : label = y.label := by simpa using named
  have other : ∀ p ∈ inner, p.2 ≠ y.label := by simpa using other
  obtain ⟨rest, perm⟩ := h.exists_closed nested isBegun ends split other
  have h := h.perm perm (.refl ahead)
  have erased : (st.pending.eraseP fun span => span.2 == y.label) = inner ++ outer := by
    rw [split, List.eraseP_append_right _ (by simpa using other),
      List.eraseP_cons_of_pos (by simp)]
  refine ⟨⟨inner ++ outer, ⟨start, token + 1, y.label⟩ :: st.done⟩, rest, ?_, ?_⟩
  · rw [close?, found]
    dsimp only
    rw [erased]
  have pending := h.pending
  have innermost := h.innermost
  have left' := h.left
  rw [split] at pending innermost
  rw [List.filterMap_cons_some (LabelledSpan.ending?_eq_some_iff.mpr ⟨rfl, rfl⟩)] at left'
  refine ⟨⟨?_, (List.perm_middle.symm.trans pending).cons_inv, ?_⟩,
    (List.forall_mem_cons.mp h.started).2, h.waiting,
    List.forall_mem_cons.mpr ⟨Nat.le_refl _, h.ended⟩, left'.cons_inv⟩
  · exact List.perm_middle.trans h.all
  · exact innermost.sublist ((List.sublist_cons_self _ _).append_left inner)

/-- Each piece is read, and the spans are where they belong. -/
theorem read? {p : ColumnPiece} (h : Within spans token (p :: left) st begun ahead)
    (writable : WritableSpans n spans) :
    ∃ st' begun' ahead', p.read? token st = some st' ∧
      Within spans token left st' begun' ahead' := by
  cases p with
  | opening label =>
    obtain ⟨begun', ahead', next⟩ := h.opening fun s mem => (writable.inside s mem).1
    exact ⟨_, begun', ahead', rfl, next⟩
  | single label =>
    obtain ⟨ahead', next⟩ := h.single
    exact ⟨_, begun, ahead', rfl, next⟩
  | closing label =>
    obtain ⟨st', begun', closed, next⟩ := h.closing writable.nested
    exact ⟨st', begun', ahead, closed, next⟩

end Within

/-! ## One value -/

theorem Within.readAll (h : Within spans token left st begun ahead)
    (writable : WritableSpans n spans) :
    ∃ st' begun' ahead', left.foldlM (ColumnPiece.read? token) st = some st' ∧
      Within spans token [] st' begun' ahead' := by
  induction left generalizing st begun ahead with
  | nil => exact ⟨st, begun, ahead, rfl, h⟩
  | cons p left ih =>
    obtain ⟨st', begun', ahead', first, next⟩ := h.read? writable
    obtain ⟨final, begun'', ahead'', rest, last⟩ := ih next
    refine ⟨final, begun'', ahead'', ?_, last⟩
    rw [List.foldlM_cons, first]
    exact rest

/-- With no pieces left nothing that is begun ends at the token, and nothing ahead starts there. -/
theorem Within.between (h : Within spans token [] st begun ahead) :
    Between spans (token + 1) st begun ahead := by
  obtain ⟨begins, starts⟩ := List.append_eq_nil_iff.mp h.left.nil_eq.symm
  refine ⟨h.toSorts, fun s mem => ?_, fun s mem => ?_, h.ended⟩
  · obtain ⟨start, stop⟩ := h.started s mem
    have stays := List.filterMap_eq_nil_iff.mp begins s mem
    rw [LabelledSpan.ending?, ite_eq_right_iff] at stays
    have longer : s.stop ≠ token + 1 := fun ends => Option.some_ne_none _ (stays ends)
    omega
  · have start := h.waiting s mem
    have stays := List.filterMap_eq_nil_iff.mp starts s mem
    rw [LabelledSpan.beginning?, ite_eq_right_iff] at stays
    have later : s.start ≠ token := fun begins => Option.some_ne_none _ (stays begins)
    omega

/-- The pieces at a token are those of spans that end there and of spans that start there. -/
theorem Between.within (h : Between spans token st begun ahead) (writable : WritableSpans n spans)
    (pieces : left.Perm (spans.filterMap (LabelledSpan.piece? token))) :
    Within spans token left st begun ahead := by
  have proper (s : LabelledSpan) (mem : s ∈ ahead) : s.start < s.stop :=
    (writable.inside s (h.all.mem_iff.mp (by simp [mem]))).1
  have ends : begun.filterMap (LabelledSpan.piece? token) =
      begun.filterMap (LabelledSpan.ending? token) :=
    List.filterMap_congr fun s mem => if_neg (Nat.ne_of_lt (h.started s mem).1)
  have begins : ahead.filterMap (LabelledSpan.piece? token) =
      ahead.filterMap (LabelledSpan.beginning? token) := by
    refine List.filterMap_congr fun s mem => ?_
    have start := h.waiting s mem
    have longer := proper s mem
    unfold LabelledSpan.piece? LabelledSpan.beginning? LabelledSpan.ending?
    split
    · rfl
    · exact if_neg (by omega)
  have past : st.done.filterMap (LabelledSpan.piece? token) = [] := by
    refine List.filterMap_eq_nil_iff.mpr fun s mem => ?_
    have stop := h.ended s mem
    have longer := (writable.inside s (h.all.mem_iff.mp (by simp [mem]))).1
    unfold LabelledSpan.piece? LabelledSpan.ending?
    rw [if_neg (by omega), if_neg (by omega)]
  refine ⟨h.toSorts, fun s mem => ?_, h.waiting, fun s mem => ?_, ?_⟩
  · exact ⟨Nat.le_of_lt (h.started s mem).1, (h.started s mem).2⟩
  · exact Nat.le_succ_of_le (h.ended s mem)
  · refine pieces.trans ((h.all.symm.filterMap _).trans (.of_eq ?_))
    rw [List.filterMap_append, List.filterMap_append, ends, begins, past, List.append_nil]

/-- Before the first token all spans are ahead. -/
theorem between_start (spans : List LabelledSpan) : Between spans 0 {} [] spans where
  all := .of_eq (List.append_nil spans)
  pending := .refl []
  innermost := .nil
  started _ mem := absurd mem List.not_mem_nil
  waiting s _ := Nat.zero_le s.start
  ended _ mem := absurd mem List.not_mem_nil

/-- Behind the last token all spans are closed. -/
theorem Between.closed (h : Between spans n st begun ahead) (writable : WritableSpans n spans) :
    st.pending = [] ∧ st.done.Perm spans := by
  have inside (s : LabelledSpan) (mem : s ∈ begun ++ ahead) : s.start < s.stop ∧ s.stop ≤ n :=
    writable.inside s (h.all.mem_iff.mp (List.mem_append_left st.done mem))
  have noneBegun : begun = [] := by
    refine List.eq_nil_iff_forall_not_mem.mpr fun s mem => ?_
    have stop := (h.started s mem).2
    have within := inside s (List.mem_append_left ahead mem)
    omega
  have noneAhead : ahead = [] := by
    refine List.eq_nil_iff_forall_not_mem.mpr fun s mem => ?_
    have start := h.waiting s mem
    have within := inside s (List.mem_append_right begun mem)
    omega
  obtain ⟨⟨all, pending, -⟩, -, -, -⟩ := h
  subst noneBegun noneAhead
  exact ⟨pending.eq_nil, all⟩

/-! ## The whole column -/

theorem Between.readColumn (h : Between spans token st begun ahead)
    (writable : WritableSpans n spans) {values : List String}
    (written : ∀ i value, values[i]? = some value → IsValueAt spans (token + i) value) :
    ∃ st' begun' ahead', readColumn coreferenceStyle token st values = .ok st' ∧
      Between spans (token + values.length) st' begun' ahead' := by
  induction values generalizing token st begun ahead with
  | nil => exact ⟨st, begun, ahead, rfl, h⟩
  | cons value values ih =>
    obtain ⟨pieces, perm, rfl⟩ := written 0 value rfl
    have labels : ∀ p ∈ pieces, IsLabel p.label := by
      intro p mem
      obtain ⟨s, listed, here⟩ := List.mem_filterMap.mp (perm.mem_iff.mp mem)
      rw [LabelledSpan.label_of_piece? here]
      exact writable.labels s listed
    obtain ⟨st', begun', ahead', read, last⟩ := (h.within writable perm).readAll writable
    have next : ∀ i value, values[i]? = some value → IsValueAt spans (token + 1 + i) value := by
      intro i value here
      rw [Nat.add_assoc, Nat.add_comm 1]
      exact written (i + 1) value here
    obtain ⟨final, begun'', ahead'', rest, ended⟩ := ih last.between next
    refine ⟨final, begun'', ahead'', ?_, ?_⟩
    · rw [readColumn_columnValue token st labels, read]
      exact rest
    · rw [List.length_cons, Nat.add_comm values.length, ← Nat.add_assoc]
      exact ended

end ColumnState

/-- Spans that were written into a column are read back from it, each as often as it was written. -/
theorem labelledSpans_writes {n : Nat} {spans : List LabelledSpan} {values : List String}
    (writable : WritableSpans n spans) (writes : WritesSpans n spans values)
    (column line : Nat) :
    ∃ decoded, labelledSpans coreferenceStyle column line values = .ok decoded ∧
      decoded.Perm spans := by
  have written : ∀ i value, values[i]? = some value → IsValueAt spans (0 + i) value := by
    intro i value here
    rw [Nat.zero_add]
    exact writes.values i value here
  obtain ⟨st, begun, ahead, read, ended⟩ :=
    (ColumnState.between_start spans).readColumn writable written
  rw [Nat.zero_add, writes.length] at ended
  obtain ⟨pending, done⟩ := ended.closed writable
  refine ⟨st.done.reverse, ?_, (List.reverse_perm st.done).trans done⟩
  rw [labelledSpans, read]
  dsimp only
  rw [pending, List.isEmpty_nil, if_pos rfl]

/-- Nested spans of one label, two of them the same, are crossed by a span of another. -/
theorem labelledSpans_writes_crossing :
    let spans : List LabelledSpan :=
      [⟨0, 3, "1"⟩, ⟨1, 4, "2"⟩, ⟨1, 2, "1"⟩, ⟨1, 2, "1"⟩, ⟨1, 3, "1"⟩]
    let values := ["(1", "(1)|(2|(1|(1)", "1)|1)", "2)", "-"]
    WritableSpans 5 spans ∧ WritesSpans 5 spans values ∧
      ∃ decoded, labelledSpans coreferenceStyle 11 1 values = .ok decoded ∧
        decoded.Perm spans := by
  intro spans values
  have writable : WritableSpans 5 spans :=
    ⟨by decide +kernel, by decide +kernel, by decide +kernel⟩
  have writes : WritesSpans 5 spans values := by
    refine ⟨rfl, fun token value here => ?_⟩
    match token with
    | 0 => cases here; exact ⟨[.opening "1"], by decide +kernel, by decide +kernel⟩
    | 1 =>
      cases here
      exact ⟨[.single "1", .opening "2", .opening "1", .single "1"], by decide +kernel,
        by decide +kernel⟩
    | 2 => cases here; exact ⟨[.closing "1", .closing "1"], by decide +kernel, by decide +kernel⟩
    | 3 => cases here; exact ⟨[.closing "2"], by decide +kernel, by decide +kernel⟩
    | 4 => cases here; exact ⟨[], by decide +kernel, by decide +kernel⟩
    | _ + 5 => cases here
  exact ⟨writable, writes, labelledSpans_writes writable writes 11 1⟩

end Discourse
