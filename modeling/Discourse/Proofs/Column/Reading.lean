import Discourse.Proofs.FirstFailure
import Discourse.Source.Columns
/-!
# Reading sentences from columns

The numbers of the lines are there for faults and for nothing else: where a sentence can be read,
the fields of its lines decide what is read (`readSentences_of_fields`).
-/

namespace Discourse

theorem mapError_eq_ok_iff {ε ε' α : Type} {x : Except ε α} {f : ε → ε'} {a : α} :
    x.mapError f = .ok a ↔ x = .ok a := by
  cases x with
  | error e =>
    constructor
    · intro failed
      cases failed
    · intro failed
      cases failed
  | ok b =>
    constructor
    · intro same
      cases same
      rfl
    · intro same
      cases same
      rfl

theorem TokenRow.bracketed_of_fields {row row' : TokenRow} (same : row.fields = row'.fields) :
    row.bracketed = row'.bracketed := by
  simp only [bracketed, parseBit, pos, word, field, same]

section Blind

variable {rows rows' : List TokenRow}

/-- What does not go by the numbers of the lines goes by their fields. -/
theorem map_of_fields {γ : Type} (f : TokenRow → γ) (blind : ∀ row, f row = f ⟨0, row.fields⟩)
    (same : rows.map TokenRow.fields = rows'.map TokenRow.fields) : rows.map f = rows'.map f := by
  have through (rows : List TokenRow) :
      rows.map f = (rows.map TokenRow.fields).map fun fields => f ⟨0, fields⟩ := by
    rw [List.map_map]
    exact List.map_congr_left fun row _ => blind row
  rw [through, through, same]

theorem labelledSpans_of_ok {style : ColumnStyle} {column line : Nat} {values : List String}
    {spans : List LabelledSpan} (read : labelledSpans style column line values = .ok spans)
    (column' line' : Nat) : labelledSpans style column' line' values = .ok spans := by
  unfold labelledSpans at read ⊢
  split at read
  next => cases read
  next =>
    split at read
    next closed => exact (if_pos closed).trans read
    next => cases read

theorem goldSpan_of_ok {line : Nat} {span : LabelledSpan} {gold : MentionSpan}
    (read : goldSpan line span = .ok gold) (line' : Nat) : goldSpan line' span = .ok gold := by
  unfold goldSpan at read ⊢
  split at read
  next => exact read
  next => cases read

/-- The lines of a sentence are read by their fields. -/
theorem readRows_of_fields {built : Sentence × List MentionSpan}
    (same : rows.map TokenRow.fields = rows'.map TokenRow.fields)
    (read : readRows rows = .ok built) : readRows rows' = .ok built := by
  rw [readRows] at read ⊢
  obtain ⟨named, entities, read⟩ := bind_eq_ok_iff.mp read
  obtain ⟨coreferent, references, read⟩ := bind_eq_ok_iff.mp read
  obtain ⟨gold, numbers, read⟩ := bind_eq_ok_iff.mp read
  obtain ⟨tree, parse, read⟩ := bind_eq_ok_iff.mp read
  rw [map_of_fields TokenRow.entityBit (fun _ => rfl) same] at entities
  rw [map_of_fields TokenRow.coreferenceBit (fun _ => rfl) same] at references
  rw [map_of_fields TokenRow.bracketed (fun _ => TokenRow.bracketed_of_fields rfl) same] at parse
  rw [map_of_fields TokenRow.token (fun _ => rfl) same] at read
  refine bind_eq_ok_iff.mpr ⟨named, ?_, bind_eq_ok_iff.mpr ⟨coreferent, ?_,
    bind_eq_ok_iff.mpr ⟨gold, ?_, bind_eq_ok_iff.mpr ⟨tree, ?_, read⟩⟩⟩⟩
  · exact mapError_eq_ok_iff.mpr (labelledSpans_of_ok (mapError_eq_ok_iff.mp entities) _ _)
  · exact mapError_eq_ok_iff.mpr (labelledSpans_of_ok (mapError_eq_ok_iff.mp references) _ _)
  · refine mapM_of_map_eq (v := id) (w := id) rfl ?_ numbers
    rintro span _ g rfl number
    exact goldSpan_of_ok number _
  · exact mapError_eq_ok_iff.mpr (mapError_eq_ok_iff.mp parse)

end Blind

/-- The lines of a document are read by their fields. -/
theorem readSentences_of_fields {id : String} {sentences sentences' : List (List TokenRow)}
    {built : Document × RawMentions}
    (same : sentences.map (List.map TokenRow.fields) = sentences'.map (List.map TokenRow.fields))
    (read : readSentences id sentences = .ok built) : readSentences id sentences' = .ok built := by
  rw [readSentences] at read ⊢
  obtain ⟨rows, each, read⟩ := bind_eq_ok_iff.mp read
  exact bind_eq_ok_iff.mpr ⟨rows, mapM_of_map_eq same (fun _ _ _ => readRows_of_fields) each, read⟩

/-! ## Words -/

theorem map_word_tagEntities (tokens : List Token) (spans : List LabelledSpan) :
    (tagEntities tokens spans).map Token.word = tokens.map Token.word := by
  rw [tagEntities, List.map_map]
  conv => enter [2]; rw [← List.zipIdx_map_fst 0 tokens, List.map_map]
  refine List.map_congr_left fun x _ => ?_
  obtain ⟨t, i⟩ := x
  dsimp only [Function.comp_apply]
  split <;> rfl

theorem map_word_of_readRows {rows : List TokenRow} {built : Sentence × List MentionSpan}
    (read : readRows rows = .ok built) :
    built.1.tokens.map Token.word = rows.map TokenRow.word := by
  rw [readRows] at read
  obtain ⟨named, -, read⟩ := bind_eq_ok_iff.mp read
  obtain ⟨coreferent, -, read⟩ := bind_eq_ok_iff.mp read
  obtain ⟨gold, -, read⟩ := bind_eq_ok_iff.mp read
  obtain ⟨tree, -, read⟩ := bind_eq_ok_iff.mp read
  cases read
  rw [map_word_tagEntities, List.map_map]
  rfl

/-- The words of a document are those of its lines. -/
theorem map_word_of_readSentences {id : String} {sentences : List (List TokenRow)}
    {built : Document × RawMentions} (read : readSentences id sentences = .ok built) :
    built.1.tokens.map Token.word = sentences.flatten.map TokenRow.word := by
  rw [readSentences] at read
  obtain ⟨rows, each, read⟩ := bind_eq_ok_iff.mp read
  cases read
  have words : sentences.map (List.map TokenRow.word) =
      rows.map fun built => built.1.tokens.map Token.word :=
    map_eq_of_mapM_eq_ok each fun _ _ built => (map_word_of_readRows built).symm
  rw [Document.tokens, List.map_flatMap, List.map_flatten, words, List.flatMap_def]
  exact congrArg List.flatten (List.map_map ..)

/-- Each sentence of a document is read from some of its lines. -/
theorem exists_readRows_of_readSentences {id : String} {sentences : List (List TokenRow)}
    {built : Document × RawMentions} {s : Sentence}
    (read : readSentences id sentences = .ok built) (mem : s ∈ built.1.sentences) :
    ∃ rows ∈ sentences, ∃ gold, readRows rows = .ok (s, gold) := by
  rw [readSentences] at read
  obtain ⟨results, each, read⟩ := bind_eq_ok_iff.mp read
  cases read
  obtain ⟨⟨s, gold⟩, listed, rfl⟩ := List.mem_map.mp mem
  obtain ⟨rows, inside, here⟩ := exists_mem_of_mapM_eq_ok each listed
  exact ⟨rows, inside, gold, here⟩

end Discourse
