import Discourse.Proofs.Attribution.Cast
import Discourse.Proofs.Preparation.Outcome
import Discourse.Source.AnnotatedJson
import Mathlib.Algebra.GroupWithZero.Nat
/-!
# Accepted ranges

A text is accepted exactly if its parses can be read and fit, its entity mentions begin at tokens,
and its quotations are ranges of tokens that are not empty (`exists_build_iff`).  So an accepted
document has sound quotations, but where an entity mention ends is nowhere looked at: its range is
sound exactly if it was handed over so (`documentOfValue_ranges`).

A range that goes on beyond the tokens names what it has of them (`Document.textBetween_min`).
-/

namespace Discourse

namespace Document

/-- Whether a range of tokens is not empty and lies in the document. -/
def Holds (doc : Document) (start stop : Nat) : Prop := start < stop ∧ stop ≤ doc.tokenCount

/-- What the checks on reading see to.  The text of an entity mention is made of the tokens of its
range that there are. -/
structure Checked (doc : Document) : Prop where
  quotes : ∀ q ∈ doc.quotes, doc.Holds q.tokenBegin q.tokenEnd
  entities : doc.EntitiesBeginInside
  texts : ∀ e ∈ doc.entities,
    e.text = doc.textBetween e.tokenBegin (min e.tokenEnd doc.tokenCount)

/-- A range names what it has of the document. -/
theorem textBetween_min (doc : Document) (start stop : Nat) :
    doc.textBetween start (min stop doc.tokenCount) = doc.textBetween start stop := by
  rw [textBetween, textBetween, ← length_tokens, ← List.take_take, List.take_length]

end Document

namespace AnnotatedText

variable {text : AnnotatedText} {doc : Document} {raw : RawMentions}

/-- The number of tokens handed over. -/
def tokenCount (text : AnnotatedText) : Nat := (text.sentences.map fun s => s.tokens.length).sum

/-- Whether a text passes the checks. -/
structure Admissible (text : AnnotatedText) : Prop where
  parses : ∀ s number, (s, number) ∈ text.sentences.zipIdx →
    ∃ parse?, s.readParse number = .ok parse?
  entities : ∀ e ∈ text.entities, e.tokenBegin < text.tokenCount
  quotes : ∀ range ∈ text.quotes, range.1 < range.2 ∧ range.2 ≤ text.tokenCount

/-! ## The single checks -/

theorem buildEntity_eq_ok_iff {e : AnnotatedEntity} {built : EntityMention} :
    buildEntity doc e = .ok built ↔ ∃ position, doc.locate? e.tokenBegin = some position ∧
      built = ⟨doc.textBetween e.tokenBegin e.tokenEnd, position.1, e.tokenBegin, e.tokenEnd,
        e.entityType, e.canonical?⟩ := by
  rw [buildEntity]
  cases doc.locate? e.tokenBegin with
  | none => simp
  | some position => simp [eq_comm]

theorem buildQuote_eq_ok_iff {range : Nat × Nat} {index : Nat} {built : Quotation} :
    buildQuote doc range index = .ok built ↔
      doc.Holds range.1 range.2 ∧ built = doc.quotationOf index range.1 range.2 := by
  rw [buildQuote]
  split
  next holds => simp [Document.Holds, holds, eq_comm]
  next fails => simp [Document.Holds, fails]

theorem tokensIn_of_mapM {sources : List (AnnotatedSentence × Nat)} {sentences : List Sentence}
    (read : (sources.mapM fun (s, number) => s.build number) = .ok sentences) :
    Document.tokensIn sentences = ((sources.map Prod.fst).map fun s => s.tokens.length).sum := by
  have lengths : sources.map (fun source => source.1.tokens.length) =
      sentences.map Sentence.length := by
    refine map_eq_of_mapM_eq_ok read fun (s, number) sentence built => ?_
    obtain ⟨parse?, -, rfl⟩ := map_eq_ok_iff.mp built
    rfl
  rw [List.map_map, Function.comp_def, lengths]
  clear read lengths
  induction sentences with
  | nil => rfl
  | cons s rest ih => rw [Document.tokensIn, ih, List.map_cons, List.sum_cons]

/-! ## All checks -/

/-- The document of the sentences, before its entity mentions and quotations are checked. -/
def bareDocument (text : AnnotatedText) (sentences : List Sentence) : Document :=
  { Document.ofSentences text.id sentences with
    marked := text.marked, fromColumns := text.fromColumns }

/-- What is accepted has gone through the three rows of checks. -/
theorem build_eq_ok_iff : text.build = .ok (doc, raw) ↔ ∃ sentences entities quotes,
    (text.sentences.zipIdx.mapM fun (s, number) => s.build number) = .ok sentences ∧
    text.entities.mapM (buildEntity (text.bareDocument sentences)) = .ok entities ∧
    (text.quotes.zipIdx.mapM fun (range, index) =>
      buildQuote (text.bareDocument sentences) range index) = .ok quotes ∧
    doc = { text.bareDocument sentences with entities, quotes } ∧ raw = text.mentions := by
  constructor
  · intro built
    obtain ⟨sentences, read, built⟩ := bind_eq_ok_iff.mp built
    obtain ⟨entities, named, built⟩ := bind_eq_ok_iff.mp built
    obtain ⟨quotes, quoted, built⟩ := bind_eq_ok_iff.mp built
    cases built
    exact ⟨sentences, entities, quotes, read, named, quoted, rfl, rfl⟩
  · rintro ⟨sentences, entities, quotes, read, named, quoted, rfl, rfl⟩
    refine bind_eq_ok_iff.mpr ⟨sentences, read, ?_⟩
    refine bind_eq_ok_iff.mpr ⟨entities, named, ?_⟩
    exact bind_eq_ok_iff.mpr ⟨quotes, quoted, rfl⟩

theorem tokenCount_bareDocument {sentences : List Sentence}
    (read : (text.sentences.zipIdx.mapM fun (s, number) => s.build number) = .ok sentences) :
    (text.bareDocument sentences).tokenCount = text.tokenCount := by
  have count := tokensIn_of_mapM read
  rw [List.zipIdx_map_fst] at count
  exact count

theorem tokenCount_of_build (built : text.build = .ok (doc, raw)) :
    doc.tokenCount = text.tokenCount := by
  obtain ⟨sentences, entities, quotes, read, -, -, rfl, -⟩ := build_eq_ok_iff.mp built
  exact tokenCount_bareDocument read

/-- An accepted document has the entity mentions that were handed over, with their ranges. -/
theorem entities_of_build (built : text.build = .ok (doc, raw)) :
    (text.entities.map fun e => (e.tokenBegin, e.tokenEnd)) =
      doc.entities.map fun e => (e.tokenBegin, e.tokenEnd) := by
  obtain ⟨sentences, entities, quotes, -, named, -, rfl, -⟩ := build_eq_ok_iff.mp built
  refine map_eq_of_mapM_eq_ok named fun e entity built => ?_
  obtain ⟨position, -, rfl⟩ := buildEntity_eq_ok_iff.mp built
  rfl

theorem checked_of_build (built : text.build = .ok (doc, raw)) : doc.Checked := by
  obtain ⟨sentences, entities, quotes, -, named, quoted, rfl, -⟩ := build_eq_ok_iff.mp built
  refine ⟨fun q mem => ?_, fun e mem => ?_, fun e mem => ?_⟩
  · obtain ⟨⟨range, index⟩, -, built⟩ := exists_mem_of_mapM_eq_ok quoted mem
    obtain ⟨holds, rfl⟩ := buildQuote_eq_ok_iff.mp built
    exact holds
  · obtain ⟨source, -, built⟩ := exists_mem_of_mapM_eq_ok named mem
    obtain ⟨position, found, rfl⟩ := buildEntity_eq_ok_iff.mp built
    exact Document.locateFrom_isSome_iff.mp (Option.isSome_of_eq_some found)
  · obtain ⟨source, -, built⟩ := exists_mem_of_mapM_eq_ok named mem
    obtain ⟨position, -, rfl⟩ := buildEntity_eq_ok_iff.mp built
    exact ((text.bareDocument sentences).textBetween_min _ _).symm

theorem admissible_of_build (built : text.build = .ok (doc, raw)) : text.Admissible := by
  obtain ⟨sentences, entities, quotes, read, named, quoted, -, -⟩ := build_eq_ok_iff.mp built
  have count := tokenCount_bareDocument read
  refine ⟨fun s number mem => ?_, fun e mem => ?_, fun range mem => ?_⟩
  · have passes := List.mem_map_of_mem (f := fun (s, number) => s.build number) mem
    rw [mapM_eq_ok_iff.mp read] at passes
    obtain ⟨sentence, -, passes⟩ := List.mem_map.mp passes
    obtain ⟨parse?, read, -⟩ := map_eq_ok_iff.mp passes.symm
    exact ⟨parse?, read⟩
  · have passes := List.mem_map_of_mem (f := buildEntity (text.bareDocument sentences)) mem
    rw [mapM_eq_ok_iff.mp named] at passes
    obtain ⟨entity, -, passes⟩ := List.mem_map.mp passes
    obtain ⟨position, found, -⟩ := buildEntity_eq_ok_iff.mp passes.symm
    rw [← count]
    exact Document.locateFrom_isSome_iff.mp (Option.isSome_of_eq_some found)
  · obtain ⟨index, here⟩ := List.getElem?_of_mem mem
    have passes := List.mem_map_of_mem
      (f := fun (range, index) => buildQuote (text.bareDocument sentences) range index)
      (List.mem_zipIdx_iff_getElem?.mpr here : (range, index) ∈ text.quotes.zipIdx)
    rw [mapM_eq_ok_iff.mp quoted] at passes
    obtain ⟨quote, -, passes⟩ := List.mem_map.mp passes
    obtain ⟨holds, -⟩ := buildQuote_eq_ok_iff.mp passes.symm
    rw [← count]
    exact holds

/-- A text that passes the checks is accepted. -/
theorem Admissible.exists_build (admissible : text.Admissible) :
    ∃ doc, text.build = .ok (doc, text.mentions) := by
  have parsed : ∀ entry ∈ text.sentences.zipIdx, ∃ sentence, entry.1.build entry.2 = .ok sentence := by
    intro (s, number) mem
    obtain ⟨parse?, read⟩ := admissible.parses s number mem
    exact ⟨_, map_eq_ok_iff.mpr ⟨parse?, read, rfl⟩⟩
  obtain ⟨sentences, read⟩ := exists_mapM parsed
  have count := tokenCount_bareDocument read
  have found : ∀ e ∈ text.entities, ∃ entity,
      buildEntity (text.bareDocument sentences) e = .ok entity := by
    intro e mem
    have inside := admissible.entities e mem
    rw [← count] at inside
    obtain ⟨position, found⟩ :=
      Option.isSome_iff_exists.mp (Document.locateFrom_isSome_iff.mpr inside)
    exact ⟨_, buildEntity_eq_ok_iff.mpr ⟨position, found, rfl⟩⟩
  obtain ⟨entities, named⟩ := exists_mapM found
  have ranged : ∀ entry ∈ text.quotes.zipIdx, ∃ quote,
      buildQuote (text.bareDocument sentences) entry.1 entry.2 = .ok quote := by
    intro (range, index) mem
    have holds := admissible.quotes range (List.fst_mem_of_mem_zipIdx mem)
    rw [← count] at holds
    exact ⟨_, buildQuote_eq_ok_iff.mpr ⟨holds, rfl⟩⟩
  obtain ⟨quotes, quoted⟩ := exists_mapM ranged
  exact ⟨_, build_eq_ok_iff.mpr
    ⟨sentences, entities, quotes, read, named, quoted, rfl, rfl⟩⟩

theorem exists_build_iff : (∃ doc raw, text.build = .ok (doc, raw)) ↔ text.Admissible := by
  constructor
  · rintro ⟨doc, raw, built⟩
    exact admissible_of_build built
  · intro admissible
    obtain ⟨doc, built⟩ := admissible.exists_build
    exact ⟨doc, text.mentions, built⟩

/-- A document is accepted exactly if its text is admissible.  Its quotations then are ranges of its
tokens that are not empty, and its entity mentions begin at tokens; but they are such ranges exactly
if they were handed over as such. -/
theorem documentOfValue_ranges (value? : Option Json) :
    ((∃ doc raw, documentOfValue value? = .ok (doc, raw)) ↔
      ∃ text, value?.bind ofJson? = some text ∧ text.Admissible) ∧
    ∀ doc raw, documentOfValue value? = .ok (doc, raw) → doc.Checked ∧
      ∃ text, value?.bind ofJson? = some text ∧
        ((∀ e ∈ doc.entities, doc.Holds e.tokenBegin e.tokenEnd) ↔
          ∀ e ∈ text.entities, e.tokenBegin < e.tokenEnd ∧ e.tokenEnd ≤ text.tokenCount) := by
  rw [documentOfValue]
  cases read : value?.bind ofJson? with
  | none =>
    refine ⟨⟨?_, ?_⟩, ?_⟩
    · rintro ⟨doc, raw, ⟨⟩⟩
    · rintro ⟨text, ⟨⟩, -⟩
    · rintro doc raw ⟨⟩
  | some text =>
    refine ⟨⟨?_, ?_⟩, fun doc raw built => ?_⟩
    · rintro ⟨doc, raw, built⟩
      exact ⟨text, rfl, admissible_of_build built⟩
    · rintro ⟨text, ⟨⟩, admissible⟩
      exact exists_build_iff.mpr admissible
    · refine ⟨checked_of_build built, text, rfl, ?_⟩
      have ranges := entities_of_build built
      rw [← tokenCount_of_build built]
      have kept : (∀ range ∈ doc.entities.map fun e => (e.tokenBegin, e.tokenEnd),
          doc.Holds range.1 range.2) ↔ ∀ e ∈ doc.entities, doc.Holds e.tokenBegin e.tokenEnd :=
        List.forall_mem_map
      rw [← ranges] at kept
      exact kept.symm.trans List.forall_mem_map

/-- Two words in a quotation, of which one is a name. -/
theorem documentOfValue_ranges_joe :
    let word (word pos : String) :=
      Json.ofFields [("word", .ofString word), ("pos", .ofString pos)]
    let sentence := Json.ofFields [("tokens", .arr [word "Hi" "UH", word "Joe" "NNP"])]
    let range (start stop : Nat) (rest : List (String × Json)) :=
      Json.ofFields ([("token_begin", .ofNat start), ("token_end", .ofNat stop)] ++ rest)
    let value := Json.ofFields [("doc_id", .ofString ""), ("sentences", .arr [sentence]),
      ("entity_mentions", .arr [range 1 2 [("entity_type", .ofString "PERSON")]]),
      ("quotes", .arr [range 0 2 []])]
    ∃ doc raw, documentOfValue (some value) = .ok (doc, raw) ∧
      (∀ q ∈ doc.quotes, doc.Holds q.tokenBegin q.tokenEnd) ∧
      ∀ e ∈ doc.entities, doc.Holds e.tokenBegin e.tokenEnd := by
  intro word sentence range value
  obtain ⟨accepts, ranges⟩ := documentOfValue_ranges (some value)
  have read : (some value).bind ofJson? = some
      { id := "", sentences := [{ tokens := [Token.ofWord "Hi" "UH", Token.ofWord "Joe" "NNP"] }]
        entities := [⟨1, 2, "PERSON", none⟩], quotes := [(0, 2)] } := rfl
  obtain ⟨doc, raw, accepted⟩ := accepts.mpr ⟨_, read, by
    refine ⟨fun s number mem => ?_, by decide, by decide⟩
    cases List.mem_singleton.mp mem
    exact ⟨none, rfl⟩⟩
  obtain ⟨checked, text, same, handed⟩ := ranges doc raw accepted
  cases read.symm.trans same
  exact ⟨doc, raw, accepted, checked.quotes, handed.mpr (by decide)⟩

/-- An entity mention of five tokens is accepted in a text of one. -/
theorem documentOfValue_range_beyond :
    let word := Json.ofFields [("word", .ofString "Joe"), ("pos", .ofString "NNP")]
    let sentence := Json.ofFields [("tokens", .arr [word])]
    let mention := Json.ofFields [("token_begin", .ofNat 0), ("token_end", .ofNat 5),
      ("entity_type", .ofString "PERSON")]
    let value := Json.ofFields [("doc_id", .ofString "d"), ("sentences", .arr [sentence]),
      ("entity_mentions", .arr [mention])]
    ∃ doc raw, documentOfValue (some value) = .ok (doc, raw) ∧
      ∃ e ∈ doc.entities, ¬doc.Holds e.tokenBegin e.tokenEnd := by
  intro word sentence mention value
  refine ⟨_, _, rfl, ⟨"Joe", 0, 0, 5, "PERSON", none⟩, List.mem_cons_self, ?_⟩
  rintro ⟨-, inside⟩
  exact absurd inside (by decide)

end AnnotatedText

end Discourse
