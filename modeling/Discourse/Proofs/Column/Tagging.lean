import Discourse.Proofs.Column.Alignment
import Discourse.Proofs.Column.Matching
/-!
# Tags from brackets

A token of a column file has its tag from the brackets of the entity column.  Where several spans go
over it, the one that is closed last gives the tag: all the others lie inside it, or are over before
it begins (`TaggedBy`).
-/

namespace Discourse

/-- The span goes over a token. -/
def LabelledSpan.Covers (span : LabelledSpan) (token : Nat) : Prop :=
  span.start ≤ token ∧ token < span.stop

/-- The span of the bracket that a column opens at the place `p` and closes at the place `q`. -/
structure IsSpanOf (values : List String) (p q : Nat) (span : LabelledSpan) : Prop where
  matched : Matched '(' ')' (values.flatMap String.toList) p q
  span : IsSpanIn (columnChars values) p q span

/-- The tag that the brackets of a column give to a token. -/
inductive TaggedBy (values : List String) (token : Nat) : String → Prop
  | outside : (∀ p q span, IsSpanOf values p q span → ¬span.Covers token) →
      TaggedBy values token "O"
  | last {p q : Nat} {span : LabelledSpan} : IsSpanOf values p q span → span.Covers token →
      (∀ p' q' span', IsSpanOf values p' q' span' → span'.Covers token →
        (p', q') = (p, q) ∨ q' < q ∧ (p < p' ∨ q' < p)) →
      TaggedBy values token span.label

theorem IsSpanIn.unique {chars : List ColumnChar} {p q : Nat} {span span' : LabelledSpan}
    (h : IsSpanIn chars p q span) (h' : IsSpanIn chars p q span') : span = span' := by
  obtain ⟨first, last, opening, closing, rfl⟩ := h
  obtain ⟨first', last', opening', closing', rfl⟩ := h'
  obtain rfl := Option.some.inj (opening.symm.trans opening')
  obtain rfl := Option.some.inj (closing.symm.trans closing')
  rfl

/-- The tag that a row of spans gives to a token. -/
def tagAmong (spans : List LabelledSpan) (token : Nat) : String :=
  match (spans.filter fun span => span.start ≤ token && token < span.stop).getLast? with
  | some span => span.label
  | none => "O"

theorem covers_iff {span : LabelledSpan} {token : Nat} :
    (decide (span.start ≤ token) && decide (token < span.stop)) = true ↔ span.Covers token := by
  rw [Bool.and_eq_true, decide_eq_true_iff, decide_eq_true_iff]
  rfl

theorem exists_mem_of_forall₂ {α β : Type} {R : α → β → Prop} {as : List α} {bs : List β}
    (each : List.Forall₂ R as bs) {a : α} (mem : a ∈ as) : ∃ b ∈ bs, R a b := by
  obtain ⟨front, back, rfl⟩ := List.append_of_mem mem
  obtain ⟨before, b, after, rfl, -, here, -⟩ := forall₂_append_cons (R := flip R)
    (List.Forall₂.flip (R := flip R) each)
  exact ⟨b, List.mem_append_right before List.mem_cons_self, here⟩

/-- Of the spans of a column the last one over a token is the one that is closed last. -/
theorem AreSpansOf.taggedBy {values : List String} {spans : List LabelledSpan}
    (h : AreSpansOf values spans) (token : Nat) : TaggedBy values token (tagAmong spans token) := by
  obtain ⟨pairs, matching, each⟩ := h
  rw [tagAmong]
  cases found : (spans.filter fun span => span.start ≤ token && token < span.stop).getLast? with
  | none =>
    have none := List.filter_eq_nil_iff.mp (List.getLast?_eq_none_iff.mp found)
    refine .outside fun p q span isSpan covers => ?_
    obtain ⟨span', mem, isSpan'⟩ :=
      exists_mem_of_forall₂ each ((matching.mem_iff p q).mpr isSpan.matched)
    rw [isSpan.span.unique isSpan'] at covers
    exact none span' mem (covers_iff.mpr covers)
  | some span =>
    obtain ⟨ys, filtered⟩ := List.getLast?_eq_some_iff.mp found
    obtain ⟨before, rest, rfl, -, filtered⟩ := List.filter_eq_append_iff.mp filtered
    obtain ⟨between, after, rfl, -, covers, filtered⟩ := List.filter_eq_cons_iff.mp filtered
    have uncovered := List.filter_eq_nil_iff.mp filtered
    rw [← List.append_assoc] at each
    obtain ⟨front, ⟨p, q⟩, back, rfl, -, here, later⟩ := forall₂_append_cons each
    have matched := (matching.mem_iff p q).mp (List.mem_append_right front List.mem_cons_self)
    refine .last ⟨matched, here⟩ (covers_iff.mp covers) fun p' q' span' isSpan' covers' => ?_
    rcases List.mem_append.mp ((matching.mem_iff p' q').mpr isSpan'.matched) with earlier | mem
    · have closed : q' < q := (List.pairwise_append.mp matching.ascending).2.2 (p', q') earlier
        (p, q) List.mem_cons_self
      exact .inr ⟨closed, matched.nested_or_apart (by decide) isSpan'.matched closed⟩
    rcases List.mem_cons.mp mem with same | mem
    · exact .inl same
    · obtain ⟨span'', listed, isSpan''⟩ := exists_mem_of_forall₂ later mem
      rw [isSpan'.span.unique isSpan''] at covers'
      exact absurd (covers_iff.mpr covers') (uncovered span'' listed)

/-- A span begins at the token at which another ends. -/
example : tagAmong [⟨0, 2, "PERSON"⟩, ⟨1, 3, "GPE"⟩] 1 = "GPE" := by rfl

/-! ## The tokens of a sentence -/

theorem getElem?_tagEntities (tokens : List Token) (spans : List LabelledSpan)
    (untagged : ∀ t ∈ tokens, t.ner = "O") (i : Nat) :
    (tagEntities tokens spans)[i]? =
      (tokens[i]?).map fun t => { t with ner := tagAmong spans i } := by
  rw [tagEntities, List.getElem?_map, List.getElem?_zipIdx, Option.map_map]
  refine Option.map_congr fun t here => ?_
  rw [Function.comp_apply, tagAmong, Nat.zero_add]
  dsimp only
  cases (spans.filter fun span => span.start ≤ i && i < span.stop).getLast? with
  | some span => rfl
  | none =>
    dsimp only
    rw [← untagged t (List.mem_of_getElem? here)]

/-- The tokens of a sentence are those of its lines with the tags of the entity column. -/
theorem tokens_of_readRows {rows : List TokenRow} {s : Sentence} {gold : List MentionSpan}
    (read : readRows rows = .ok (s, gold)) :
    ∃ spans, AreSpansOf (rows.map TokenRow.entityBit) spans ∧
      s.tokens = tagEntities (rows.map TokenRow.token) spans := by
  rw [readRows] at read
  obtain ⟨named, entities, read⟩ := bind_eq_ok_iff.mp read
  obtain ⟨coreferent, -, read⟩ := bind_eq_ok_iff.mp read
  obtain ⟨gold, -, read⟩ := bind_eq_ok_iff.mp read
  obtain ⟨tree, -, read⟩ := bind_eq_ok_iff.mp read
  cases read
  exact ⟨named, areSpansOf_of_labelledSpans (mapError_eq_ok_iff.mp entities), rfl⟩

theorem taggedBy_of_readRows {rows : List TokenRow} {s : Sentence} {gold : List MentionSpan}
    (read : readRows rows = .ok (s, gold)) :
    s.tokens.length = rows.length ∧ ∀ i t, s.tokens[i]? = some t →
      TaggedBy (rows.map TokenRow.entityBit) i t.ner := by
  obtain ⟨spans, spansOf, tokens⟩ := tokens_of_readRows read
  have untagged : ∀ t ∈ rows.map TokenRow.token, t.ner = "O" := by
    intro t mem
    obtain ⟨row, -, rfl⟩ := List.mem_map.mp mem
    rfl
  constructor
  · rw [tokens, tagEntities, List.length_map, List.length_zipIdx, List.length_map]
  · intro i t here
    rw [tokens, getElem?_tagEntities _ _ untagged] at here
    obtain ⟨t, -, rfl⟩ := Option.map_eq_some_iff.mp here
    exact spansOf.taggedBy i

/-- Reading an entity column is matching brackets.  It succeeds exactly if the brackets of its
values, one value after another, are balanced.  There is then one span for every opening bracket, in
the order in which the brackets are closed, and it lies within the column.  A token of a column file
has the label of the span over it that is closed last. -/
theorem entityColumn_matched :
    (∀ column line values,
      ((∃ spans, labelledSpans entityStyle column line values = .ok spans) ↔
        Balanced '(' ')' (values.flatMap String.toList)) ∧
      ∀ spans, labelledSpans entityStyle column line values = .ok spans →
        AreSpansOf values spans ∧
          ∀ span ∈ spans, span.start < span.stop ∧ span.stop ≤ values.length) ∧
    ∀ text docs, readColumnFile text = .ok docs → ∀ built ∈ docs, ∀ s ∈ built.1.sentences,
      ∃ rows gold, readRows rows = .ok (s, gold) ∧ (∀ row ∈ rows, row.IsFrom text) ∧
        s.tokens.length = rows.length ∧ ∀ i t, s.tokens[i]? = some t →
          TaggedBy (rows.map TokenRow.entityBit) i t.ner := by
  constructor
  · intro column line values
    refine ⟨exists_labelledSpans_iff, fun spans ok => ?_⟩
    have spansOf := areSpansOf_of_labelledSpans ok
    exact ⟨spansOf, fun span mem => spansOf.inside mem⟩
  · intro text docs read built mem s inside
    rw [readColumnFile_eq] at read
    obtain ⟨file, run, -, rfl⟩ := readColumnLines_eq_ok_iff.mp read
    have start : ColumnFile.MadeOf (TokenRow.IsFrom · text) {} :=
      ⟨fun _ mem => absurd mem List.not_mem_nil,
        fun _ shut => absurd shut.symm (Option.some_ne_none _),
        fun _ mem => absurd mem List.not_mem_nil⟩
    have madeOf := start.readFrom (fun line listed fields _ kind _ => ⟨line, listed, kind⟩) run
    obtain ⟨rows, gold, here, each⟩ := madeOf.finished built mem s inside
    exact ⟨rows, gold, here, each, taggedBy_of_readRows here⟩

end Discourse
