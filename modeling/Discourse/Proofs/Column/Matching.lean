import Mathlib.Data.List.Forall2
import Discourse.Proofs.Brackets
import Discourse.Proofs.FirstFailure
import Discourse.Source.Columns
/-!
# The brackets of an entity column

The values of a column, one after another, are one row of characters, and reading the column is
matching the brackets of that row.  A bracket waits for its label until the label ends, so that the
reader puts it on its stack only at the next delimiter or at the end of the value.  By then nothing
else has happened, and it may as well be put there at once with the label that is to come
(`readValue_eq`).  What is left is a scan with a stack (`Reads`).
-/

namespace Discourse

/-! ## The characters of a column -/

/-- A character of a column. -/
structure ColumnChar where
  /-- The token in whose value it stands. -/
  token : Nat
  char : Char
  /-- What stands behind it in that value. -/
  rest : List Char
deriving DecidableEq, Repr

/-- The text up to the next delimiter or the end of the value, without stars. -/
def ColumnChar.label (x : ColumnChar) : String :=
  String.ofList ((x.rest.takeWhile fun c => !isDelimiter c).filter (· != '*'))

/-- The characters of the value of a token. -/
def valueChars (token : Nat) : List Char → List ColumnChar
  | [] => []
  | c :: rest => ⟨token, c, rest⟩ :: valueChars token rest

/-- The characters of the values of the tokens from a number on. -/
def columnCharsFrom (token : Nat) : List String → List ColumnChar
  | [] => []
  | value :: rest => valueChars token value.toList ++ columnCharsFrom (token + 1) rest

/-- The characters of a column, value after value. -/
def columnChars (values : List String) : List ColumnChar := columnCharsFrom 0 values

theorem map_char_valueChars (token : Nat) (cs : List Char) :
    (valueChars token cs).map ColumnChar.char = cs := by
  induction cs with
  | nil => rfl
  | cons c rest ih => exact congrArg (c :: ·) ih

theorem map_char_columnCharsFrom (token : Nat) (values : List String) :
    (columnCharsFrom token values).map ColumnChar.char = values.flatMap String.toList := by
  induction values generalizing token with
  | nil => rfl
  | cons value rest ih =>
    rw [columnCharsFrom, List.map_append, map_char_valueChars, ih, List.flatMap_cons]

/-- The characters of a column are those of its values. -/
theorem map_char_columnChars (values : List String) :
    (columnChars values).map ColumnChar.char = values.flatMap String.toList :=
  map_char_columnCharsFrom 0 values

theorem token_of_mem_valueChars {token : Nat} {cs : List Char} {x : ColumnChar}
    (mem : x ∈ valueChars token cs) : x.token = token := by
  induction cs with
  | nil => cases mem
  | cons c rest ih =>
    rcases List.mem_cons.mp mem with rfl | mem
    · rfl
    · exact ih mem

theorem token_of_mem_columnCharsFrom {token : Nat} {values : List String} {x : ColumnChar}
    (mem : x ∈ columnCharsFrom token values) :
    token ≤ x.token ∧ x.token < token + values.length := by
  induction values generalizing token with
  | nil => cases mem
  | cons value rest ih =>
    rw [List.length_cons]
    rcases List.mem_append.mp mem with mem | mem
    · have same := token_of_mem_valueChars mem
      omega
    · have later := ih mem
      omega

theorem pairwise_columnCharsFrom (token : Nat) (values : List String) :
    (columnCharsFrom token values).Pairwise fun x y => x.token ≤ y.token := by
  induction values generalizing token with
  | nil => exact .nil
  | cons value rest ih =>
    refine List.pairwise_append.mpr ⟨List.pairwise_of_forall_mem_list ?_, ih (token + 1), ?_⟩
    · intro x here y there
      exact Nat.le_of_eq ((token_of_mem_valueChars here).trans (token_of_mem_valueChars there).symm)
    · intro x here y there
      have first := token_of_mem_valueChars here
      have later := token_of_mem_columnCharsFrom there
      omega

/-! ## Labels that are still to come -/

namespace ColumnState

/-- The state with one more open span. -/
def push (st : ColumnState) (token : Nat) (label : String) : ColumnState :=
  { st with pending := (token, label) :: st.pending }

/-- The state after one more character, if every label is known as soon as its bracket opens. -/
def read? (st : ColumnState) (x : ColumnChar) : Option ColumnState :=
  if x.char = '(' then some (st.push x.token x.label)
  else if x.char = ')' then
    match st.pending with
    | [] => none
    | (start, label) :: pending => some ⟨pending, ⟨start, x.token + 1, label⟩ :: st.done⟩
  else some st

theorem close?_eq_read? (st : ColumnState) (token : Nat) (named : String) (rest : List Char) :
    (st.close? token fun span => !entityStyle.closesByLabel || span.2 == named) =
      st.read? ⟨token, ')', rest⟩ := by
  unfold close? read?
  cases st.pending <;> rfl

theorem read?_of_not_bracket {st : ColumnState} {x : ColumnChar} (noOpening : x.char ≠ '(')
    (noClosing : x.char ≠ ')') : st.read? x = some st := by
  rw [read?, if_neg noOpening, if_neg noClosing]

/-- A bracket whose label has been read up to some character may be taken for an open span with the
whole label. -/
theorem readValue_eq (token : Nat) (opens : Bool) (label : List Char) (st : ColumnState)
    (cs : List Char) :
    readValue entityStyle token opens label st cs = (valueChars token cs).foldlM read?
      (if opens then
        st.push token (entityStyle.clean (label.reverse ++ cs.takeWhile fun c => !isDelimiter c))
      else st) := by
  induction cs generalizing opens label st with
  | nil =>
    rw [List.takeWhile_nil, List.append_nil]
    cases opens <;> rfl
  | cons c rest ih =>
    rw [readValue, valueChars, List.foldlM_cons, List.takeWhile_cons]
    cases delimits : isDelimiter c with
    | false =>
      have noOpening : c ≠ '(' := by
        rintro rfl
        exact absurd delimits (by decide)
      have noClosing : c ≠ ')' := by
        rintro rfl
        exact absurd delimits (by decide)
      rw [read?_of_not_bracket noOpening noClosing, Option.bind_eq_bind, Option.bind_some]
      refine (ih opens (c :: label) st).trans ?_
      rw [List.reverse_cons, List.append_assoc]
      rfl
    | true =>
      -- the bracket that has waited is put on the stack, and then the delimiter does its work
      have ended : ¬(!true) = true := by decide
      rw [if_neg ended, if_neg ended, List.append_nil, push]
      generalize (if opens then ({ st with
        pending := (token, entityStyle.clean label.reverse) :: st.pending } : ColumnState)
        else st) = waited
      dsimp only
      by_cases closing : c = ')'
      · rw [if_pos closing, closing, close?_eq_read?]
        cases waited.read? ⟨token, ')', rest⟩ with
        | none => rfl
        | some next => exact ih false [] next
      · rw [if_neg closing, ih]
        by_cases opening : c = '('
        · subst opening
          rfl
        · have other : (c == '(') = false := beq_false_of_ne opening
          rw [read?_of_not_bracket opening closing, other]
          rfl

/-- Reading a column of entities is reading its characters one after another. -/
theorem readColumn_eq_ok_iff {token : Nat} {st st' : ColumnState} {values : List String} :
    readColumn entityStyle token st values = .ok st' ↔
      (columnCharsFrom token values).foldlM read? st = some st' := by
  induction values generalizing token st with
  | nil =>
    exact ⟨fun same => congrArg some (Except.ok.inj same),
      fun same => congrArg Except.ok (Option.some.inj same)⟩
  | cons value rest ih =>
    have read : readColumn entityStyle token st (value :: rest) =
        ((valueChars token value.toList).foldlM read? st).elim (.error token) fun next =>
          readColumn entityStyle (token + 1) next rest := by
      rw [readColumn, readValue_eq, if_neg Bool.false_ne_true]
      split
      next marker =>
        rw [marker]
        rfl
      next => cases (valueChars token value.toList).foldlM read? st <;> rfl
    rw [read, columnCharsFrom, List.foldlM_append]
    cases (valueChars token value.toList).foldlM read? st with
    | none => simp
    | some next => exact ih

end ColumnState

/-! ## The spans of the brackets -/

/-- The span of the bracket that is opened at one place of a row of characters and closed at
another: from the token of the one up to the token of the other, with the label behind the opening
one. -/
def IsSpanIn (chars : List ColumnChar) (p q : Nat) (span : LabelledSpan) : Prop :=
  ∃ first last, chars[p]? = some first ∧ chars[q]? = some last ∧
    span = ⟨first.token, last.token + 1, first.label⟩

/-- The open span of the bracket that is opened at a place of a row of characters. -/
def IsOpenIn (chars : List ColumnChar) (p : Nat) (entry : Nat × String) : Prop :=
  ∃ first, chars[p]? = some first ∧ entry = (first.token, first.label)

/-- The spans are those of the brackets of a column, in the order in which these are closed. -/
def AreSpansOf (values : List String) (spans : List LabelledSpan) : Prop :=
  ∃ pairs, IsMatching '(' ')' (values.flatMap String.toList) pairs ∧
    List.Forall₂ (fun pair span => IsSpanIn (columnChars values) pair.1 pair.2 span) pairs spans

section Append

variable {chars more : List ColumnChar} {p q : Nat}

theorem getElem?_append_of_some {x : ColumnChar} (here : chars[p]? = some x) :
    (chars ++ more)[p]? = some x := by
  rw [List.getElem?_append_left (List.getElem?_eq_some_iff.mp here).1, here]

theorem IsSpanIn.append {span : LabelledSpan} (h : IsSpanIn chars p q span) :
    IsSpanIn (chars ++ more) p q span := by
  obtain ⟨first, last, opening, closing, rfl⟩ := h
  exact ⟨first, last, getElem?_append_of_some opening, getElem?_append_of_some closing, rfl⟩

theorem IsOpenIn.append {entry : Nat × String} (h : IsOpenIn chars p entry) :
    IsOpenIn (chars ++ more) p entry := by
  obtain ⟨first, opening, rfl⟩ := h
  exact ⟨first, getElem?_append_of_some opening, rfl⟩

end Append

/-- What has been read is a scan of the characters, with an open span for each place on the stack
and a span for each pair. -/
structure Reads (front : List ColumnChar) (places : List Nat) (pairs : List (Nat × Nat))
    (st : ColumnState) : Prop where
  scanned : Scanned '(' ')' (front.map ColumnChar.char) places pairs
  pending : List.Forall₂ (IsOpenIn front) places st.pending
  done : List.Forall₂ (fun pair span => IsSpanIn front pair.1 pair.2 span) pairs st.done.reverse

namespace Reads

variable {front rest : List ColumnChar} {places : List Nat} {pairs : List (Nat × Nat)}
  {st st' : ColumnState} {x : ColumnChar}

theorem start : Reads [] [] [] {} := ⟨.nil, .nil, .nil⟩

theorem step (h : Reads front places pairs st) (next : st.read? x = some st') :
    ∃ places' pairs', Reads (front ++ [x]) places' pairs' st' := by
  have pending : List.Forall₂ (IsOpenIn (front ++ [x])) places st.pending :=
    h.pending.imp fun _ _ => IsOpenIn.append
  have done : List.Forall₂ (fun pair span => IsSpanIn (front ++ [x]) pair.1 pair.2 span) pairs
      st.done.reverse := h.done.imp fun _ _ => IsSpanIn.append
  have here : (front ++ [x])[(front.map ColumnChar.char).length]? = some x := by
    rw [List.length_map, List.getElem?_concat_length]
  have chars : (front ++ [x]).map ColumnChar.char = front.map ColumnChar.char ++ [x.char] := by
    rw [List.map_append]
    rfl
  by_cases opening : x.char = '('
  · rw [ColumnState.read?, if_pos opening] at next
    cases next
    refine ⟨_, pairs, ?_, .cons ⟨x, here, rfl⟩ pending, done⟩
    rw [chars, opening]
    exact .opening h.scanned
  by_cases closing : x.char = ')'
  · rw [ColumnState.read?, if_neg opening, if_pos closing] at next
    obtain ⟨entries, spans⟩ := st
    cases pending with
    | nil => cases next
    | @cons p entry places entries opened rest =>
      obtain ⟨first, there, rfl⟩ := opened
      cases next
      refine ⟨places, pairs ++ [(p, (front.map ColumnChar.char).length)], ?_, rest, ?_⟩
      · rw [chars, closing]
        exact .closing h.scanned
      · rw [List.reverse_cons]
        exact List.rel_append done (.cons ⟨first, x, there, here, rfl⟩ .nil)
  · rw [ColumnState.read?_of_not_bracket opening closing] at next
    cases next
    refine ⟨places, pairs, ?_, pending, done⟩
    rw [chars]
    exact .other opening closing h.scanned

/-- Only a closing bracket cannot be read, and only if none is open. -/
theorem stuck (h : Reads front places pairs st) (none : st.read? x = none) :
    x.char = ')' ∧ places = [] := by
  by_cases opening : x.char = '('
  · rw [ColumnState.read?, if_pos opening] at none
    cases none
  by_cases closing : x.char = ')'
  · refine ⟨closing, ?_⟩
    rw [ColumnState.read?, if_neg opening, if_pos closing] at none
    split at none
    next nothing => exact List.forall₂_nil_right_iff.mp (nothing ▸ h.pending)
    next => cases none
  · rw [ColumnState.read?_of_not_bracket opening closing] at none
    cases none

theorem run (h : Reads front places pairs st) (next : rest.foldlM ColumnState.read? st = some st') :
    ∃ places' pairs', Reads (front ++ rest) places' pairs' st' := by
  induction rest generalizing front places pairs st with
  | nil =>
    cases next
    rw [List.append_nil]
    exact ⟨places, pairs, h⟩
  | cons x rest ih =>
    rw [List.foldlM_cons] at next
    obtain ⟨mid, first, next⟩ := Option.bind_eq_some_iff.mp next
    obtain ⟨places, pairs, h⟩ := h.step first
    rw [List.append_cons]
    exact ih h next

theorem not_balanced (h : Reads front places pairs st)
    (none : rest.foldlM ColumnState.read? st = none) :
    ¬Balanced '(' ')' ((front ++ rest).map ColumnChar.char) := by
  induction rest generalizing front places pairs st with
  | nil => cases none
  | cons x rest ih =>
    rw [List.foldlM_cons] at none
    cases first : st.read? x with
    | none =>
      obtain ⟨closing, rfl⟩ := h.stuck first
      rw [List.map_append, List.map_cons, closing]
      exact h.scanned.not_balanced_append (by decide) _
    | some mid =>
      obtain ⟨places, pairs, h⟩ := h.step first
      rw [first] at none
      rw [List.append_cons]
      exact ih h none

end Reads

section Column

variable {column line : Nat} {values : List String} {spans : List LabelledSpan}

theorem labelledSpans_eq_ok_iff : labelledSpans entityStyle column line values = .ok spans ↔
    ∃ st, (columnChars values).foldlM ColumnState.read? {} = some st ∧ st.pending = [] ∧
      st.done.reverse = spans := by
  simp only [columnChars, ← ColumnState.readColumn_eq_ok_iff]
  unfold labelledSpans
  cases read : ColumnState.readColumn entityStyle 0 {} values with
  | error token => simp
  | ok st =>
    dsimp only
    split
    next closed => simpa using fun _ => List.isEmpty_iff.mp closed
    next pending => simp_all

/-- A column is read exactly if its brackets are balanced. -/
theorem exists_labelledSpans_iff :
    (∃ spans, labelledSpans entityStyle column line values = .ok spans) ↔
      Balanced '(' ')' (values.flatMap String.toList) := by
  rw [← map_char_columnChars]
  cases read : (columnChars values).foldlM ColumnState.read? {} with
  | none =>
    have unbalanced := Reads.start.not_balanced read
    refine iff_of_false ?_ unbalanced
    rintro ⟨spans, ok⟩
    obtain ⟨st, read', -⟩ := labelledSpans_eq_ok_iff.mp ok
    cases read.symm.trans read'
  | some st =>
    obtain ⟨places, pairs, reads⟩ := Reads.start.run read
    rw [List.nil_append] at reads
    rw [reads.scanned.balanced_iff (by decide)]
    constructor
    · rintro ⟨spans, ok⟩
      obtain ⟨st', read', closed, -⟩ := labelledSpans_eq_ok_iff.mp ok
      cases read.symm.trans read'
      exact List.forall₂_nil_right_iff.mp (closed ▸ reads.pending)
    · rintro rfl
      exact ⟨_, labelledSpans_eq_ok_iff.mpr
        ⟨st, read, List.forall₂_nil_left_iff.mp reads.pending, rfl⟩⟩

/-- The spans of a column are those of its brackets. -/
theorem areSpansOf_of_labelledSpans
    (ok : labelledSpans entityStyle column line values = .ok spans) : AreSpansOf values spans := by
  obtain ⟨st, read, closed, rfl⟩ := labelledSpans_eq_ok_iff.mp ok
  obtain ⟨places, pairs, reads⟩ := Reads.start.run read
  rw [List.nil_append] at reads
  obtain rfl := List.forall₂_nil_right_iff.mp (closed ▸ reads.pending)
  rw [AreSpansOf, ← map_char_columnChars]
  exact ⟨pairs, reads.scanned.isMatching (by decide), reads.done⟩

end Column

/-- A span has at least one token and stays in its column. -/
theorem IsSpanIn.inside {values : List String} {p q : Nat} {span : LabelledSpan}
    (h : IsSpanIn (columnChars values) p q span) (earlier : p < q) :
    span.start < span.stop ∧ span.stop ≤ values.length := by
  obtain ⟨first, last, opening, closing, rfl⟩ := h
  have bound := (token_of_mem_columnCharsFrom (List.mem_of_getElem? closing)).2
  rw [Nat.zero_add] at bound
  obtain ⟨inside, rfl⟩ := List.getElem?_eq_some_iff.mp opening
  obtain ⟨inside', rfl⟩ := List.getElem?_eq_some_iff.mp closing
  have ordered := List.pairwise_iff_getElem.mp (pairwise_columnCharsFrom 0 values) p q inside
    inside' earlier
  exact ⟨Nat.lt_add_one_of_le ordered, bound⟩

/-- Rows that are related member by member come apart together. -/
theorem forall₂_append_cons {α β : Type} {R : α → β → Prop} {as : List α} {before after : List β}
    {b : β} (each : List.Forall₂ R as (before ++ b :: after)) :
    ∃ front a back, as = front ++ a :: back ∧ List.Forall₂ R front before ∧ R a b ∧
      List.Forall₂ R back after := by
  have front := List.forall₂_take_append as before (b :: after) each
  obtain ⟨a, back, here, rest, same⟩ :=
    List.forall₂_cons_right_iff.mp (List.forall₂_drop_append as before (b :: after) each)
  refine ⟨_, a, back, ?_, front, here, rest⟩
  rw [← same, List.take_append_drop]

theorem AreSpansOf.inside {values : List String} {spans : List LabelledSpan}
    (h : AreSpansOf values spans) {span : LabelledSpan} (mem : span ∈ spans) :
    span.start < span.stop ∧ span.stop ≤ values.length := by
  obtain ⟨pairs, matching, each⟩ := h
  obtain ⟨before, after, rfl⟩ := List.append_of_mem mem
  obtain ⟨front, pair, back, rfl, -, here, -⟩ := forall₂_append_cons each
  have listed : pair ∈ front ++ pair :: back := List.mem_append_right front List.mem_cons_self
  exact here.inside ((matching.mem_iff pair.1 pair.2).mp listed).lt

end Discourse
