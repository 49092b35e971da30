import Discourse.Proofs.Attribution.Readiness
import Discourse.Proofs.Preparation.Analysis
import Discourse.Proofs.Preparation.Outcome
import Discourse.Source.AnnotatedJson
/-!
# Indices out of range

A document that was read from JSON is prepared and attributed without an index out of range, but
for one case (`documentOfValue_outOfRange_iff`): where mentions are detected, a sentence without a
parse may have more chunk tags than tokens, and a noun phrase among those beyond the tokens.  The
checks on reading do not see to this.  What they do see to is the parses; and that a token points
only at entity mentions there are, since what is read points at none.
-/

namespace Discourse

/-! ## Tokens that are read -/

theorem exists_mem_of_mapM_eq_some {α β : Type} {f : α → Option β} {xs : List α} {ys : List β}
    {y : β} (passes : xs.mapM f = some ys) (mem : y ∈ ys) : ∃ x ∈ xs, f x = some y := by
  induction xs generalizing ys with
  | nil =>
    cases passes
    cases mem
  | cons x rest ih =>
    rw [List.mapM_cons] at passes
    obtain ⟨z, first, passes⟩ := Option.bind_eq_some_iff.mp passes
    obtain ⟨zs, others, passes⟩ := Option.bind_eq_some_iff.mp passes
    cases passes
    rcases List.mem_cons.mp mem with rfl | mem
    · exact ⟨x, List.mem_cons_self, first⟩
    · obtain ⟨x', mem, here⟩ := ih others mem
      exact ⟨x', List.mem_cons_of_mem x mem, here⟩

theorem Json.exists_of_asList? {α : Type} {f : Json → Option α} {value : Json} {xs : List α}
    {x : α} (read : asList? f value = some xs) (mem : x ∈ xs) : ∃ item, f item = some x := by
  cases value with
  | arr items =>
    obtain ⟨item, -, read⟩ := exists_mem_of_mapM_eq_some read mem
    exact ⟨item, read⟩
  | _ => cases read

theorem Json.exists_of_required? {α : Type} {members : List (String × Json)} {name : String}
    {f : Json → Option α} {x : α} (read : required? members name f = some x) :
    ∃ value, f value = some x := by
  obtain ⟨value, -, read⟩ := Option.bind_eq_some_iff.mp read
  exact ⟨value, read⟩

theorem Token.entity?_of_ofJson? {value : Json} {t : Token} (read : ofJson? value = some t) :
    t.entity? = none := by
  obtain ⟨members, -, read⟩ := Option.bind_eq_some_iff.mp read
  obtain ⟨word, -, read⟩ := Option.bind_eq_some_iff.mp read
  obtain ⟨baseForm?, -, read⟩ := Option.bind_eq_some_iff.mp read
  obtain ⟨pos, -, read⟩ := Option.bind_eq_some_iff.mp read
  obtain ⟨ner?, -, read⟩ := Option.bind_eq_some_iff.mp read
  obtain ⟨beginChar?, -, read⟩ := Option.bind_eq_some_iff.mp read
  obtain ⟨endChar?, -, read⟩ := Option.bind_eq_some_iff.mp read
  obtain ⟨speaker?, -, read⟩ := Option.bind_eq_some_iff.mp read
  obtain ⟨utterance?, -, read⟩ := Option.bind_eq_some_iff.mp read
  cases read
  rfl

theorem AnnotatedSentence.entity?_of_ofJson? {value : Json} {s : AnnotatedSentence}
    (read : ofJson? value = some s) {t : Token} (mem : t ∈ s.tokens) : t.entity? = none := by
  obtain ⟨members, -, read⟩ := Option.bind_eq_some_iff.mp read
  obtain ⟨tokens, listed, read⟩ := Option.bind_eq_some_iff.mp read
  obtain ⟨bracketed?, -, read⟩ := Option.bind_eq_some_iff.mp read
  obtain ⟨basic?, -, read⟩ := Option.bind_eq_some_iff.mp read
  obtain ⟨enhanced?, -, read⟩ := Option.bind_eq_some_iff.mp read
  obtain ⟨chunkTags, -, read⟩ := Option.bind_eq_some_iff.mp read
  obtain ⟨predicted, -, read⟩ := Option.bind_eq_some_iff.mp read
  obtain ⟨gold?, -, read⟩ := Option.bind_eq_some_iff.mp read
  cases read
  obtain ⟨value, listed⟩ := Json.exists_of_required? listed
  obtain ⟨item, read⟩ := Json.exists_of_asList? listed mem
  exact Token.entity?_of_ofJson? read

namespace AnnotatedText

variable {text : AnnotatedText} {doc : Document} {raw : RawMentions}

theorem entity?_of_ofJson? {value : Json} (read : ofJson? value = some text)
    {s : AnnotatedSentence} (mem : s ∈ text.sentences) {t : Token} (within : t ∈ s.tokens) :
    t.entity? = none := by
  obtain ⟨members, -, read⟩ := Option.bind_eq_some_iff.mp read
  obtain ⟨id, -, read⟩ := Option.bind_eq_some_iff.mp read
  obtain ⟨marked, -, read⟩ := Option.bind_eq_some_iff.mp read
  obtain ⟨fromColumns, -, read⟩ := Option.bind_eq_some_iff.mp read
  obtain ⟨sentences, listed, read⟩ := Option.bind_eq_some_iff.mp read
  obtain ⟨entities, -, read⟩ := Option.bind_eq_some_iff.mp read
  obtain ⟨quotes, -, read⟩ := Option.bind_eq_some_iff.mp read
  cases read
  obtain ⟨value, listed⟩ := Json.exists_of_required? listed
  obtain ⟨item, read⟩ := Json.exists_of_asList? listed mem
  exact AnnotatedSentence.entity?_of_ofJson? read within

theorem entitiesInRange_of_build (built : text.build = .ok (doc, raw))
    (bare : ∀ s ∈ text.sentences, ∀ t ∈ s.tokens, t.entity? = none) : doc.EntitiesInRange := by
  obtain ⟨sentences, entities, quotes, read, rfl⟩ := exists_of_build built
  intro t mem place points
  obtain ⟨s, mem, within⟩ := List.mem_flatMap.mp mem
  obtain ⟨⟨source, number⟩, listed, built⟩ := exists_mem_of_mapM_eq_ok read mem
  obtain ⟨parse?, -, rfl⟩ := map_eq_ok_iff.mp built
  have unmarked := bare source (List.fst_mem_of_mem_zipIdx listed) t within
  cases unmarked.symm.trans points

end AnnotatedText

namespace Document

variable {doc d : Document}

theorem SameEntities.entitiesInRange (same : doc.SameEntities d) (inRange : doc.EntitiesInRange) :
    d.EntitiesInRange := by
  intro t mem place points
  have listed := List.mem_map_of_mem (f := Token.entity?) mem
  rw [same.pointers] at listed
  obtain ⟨source, mem, pointer⟩ := List.mem_map.mp listed
  rw [same.entities]
  exact inRange source mem place (pointer.trans points)

theorem preparationStops_outOfRange_iff {settings : PreparationSettings} {raw : RawMentions} :
    doc.PreparationStops settings raw .outOfRange ↔ settings.detects raw = true ∧
      ∃ n s, FirstAt (fun s => s.Mistagged ∨ s.Overruns) doc.sentences n s ∧ s.Overruns := by
  constructor
  · rintro (⟨detects, stops⟩ | _ | _ | _)
    cases stops with
    | overrun first overruns => exact ⟨detects, _, _, first, overruns⟩
  · rintro ⟨detects, n, s, first, overruns⟩
    exact .detection detects (.overrun first overruns)

end Document

namespace AnnotatedText

/-- The preparation of a document that was read from JSON has an index out of range exactly if
mentions are detected and the first sentence on which the detection stops has a noun phrase that
goes on beyond its tokens.  The attribution never has one: all that may stop it is a subject without
a place. -/
theorem documentOfValue_outOfRange_iff {value? : Option Json} {doc : Document} {raw : RawMentions}
    (accepted : documentOfValue value? = .ok (doc, raw)) (lex : Lexicon)
    (settings : PreparationSettings) :
    ((doc.prepare lex settings raw).2 = .error .outOfRange ↔ settings.detects raw = true ∧
      ∃ n s, FirstAt (fun s => s.Mistagged ∨ s.Overruns) doc.sentences n s ∧ s.Overruns) ∧
    ∀ {S : Type} [QuoteScorer S] (attribution : AttributionSettings) (scorer? : Option S),
      (∀ stop, (doc.prepare lex settings raw).1.attributeQuotes lex attribution scorer? =
        .error stop → stop = .overflow) ∧
      (doc.SubjectsFit → ∃ final counts,
        (doc.prepare lex settings raw).1.attributeQuotes lex attribution scorer? =
          .ok (final, counts)) := by
  rw [documentOfValue] at accepted
  split at accepted
  · cases accepted
  next text read =>
    obtain ⟨value, -, read⟩ := Option.bind_eq_some_iff.mp read
    have inRange := entitiesInRange_of_build accepted fun s mem t within =>
      entity?_of_ofJson? read mem within
    have kept := doc.sameEntities_prepare lex settings raw
    have prepared := kept.entitiesInRange inRange
    refine ⟨?_, fun attribution scorer? => ⟨fun stop stopped => ?_, fun fit => ?_⟩⟩
    · rw [← Document.preparationStops_outOfRange_iff]
      exact Document.prepare_eq_error_iff lex (fresh_of_build accepted)
        (parsesFit_of_build accepted)
    · rcases Document.attributeQuotes_eq_error stopped with ⟨-, beyond⟩ | ⟨overflow, -⟩
      · exact absurd prepared beyond
      · exact overflow
    · obtain ⟨final, attributed⟩ :=
        prepared.afterAttribution (fit.congr kept.frames) lex attribution scorer?
      exact ⟨final, Document.afterAttribution_eq_ok_iff.mp attributed⟩

/-- A noun phrase beyond the tokens does no harm behind a sentence whose tags are not legal. -/
theorem documentOfValue_outOfRange_iff_behind :
    let word := Json.ofFields [("word", .ofString "it"), ("pos", .ofString "PRP")]
    let sentence (tags : List Json) :=
      Json.ofFields [("tokens", .arr [word]), ("chunk_tags", .arr tags)]
    let sentences :=
      [sentence [.ofString "I-NP"], sentence [.ofString "B-NP", .ofString "B-NP"]]
    let value := Json.ofFields [("doc_id", .ofString ""), ("sentences", .arr sentences)]
    ∃ doc raw, documentOfValue (some value) = .ok (doc, raw) ∧ ∀ lex settings,
      (doc.prepare lex settings raw).2 ≠ .error .outOfRange ∧ ∃ final counts,
        (doc.prepare lex settings raw).1.attributeQuotes lex .default (none : Option Scorer) =
          .ok (final, counts) := by
  intro word sentence sentences value
  let it := Token.ofWord "it" "PRP"
  let mistagged : Sentence := { tokens := [it], chunkTags := ["I-NP"] }
  let overrun : Sentence := { tokens := [it], chunkTags := ["B-NP", "B-NP"] }
  have accepted : documentOfValue (some value) =
      .ok (Document.ofSentences "" [mistagged, overrun], ⟨[[], []], none⟩) := rfl
  have illegal : FirstIllegal ["I-NP"] 0 "I-NP" := by
    obtain ⟨i, tag, same, first⟩ := decodeChunks_eq_error_iff.mp
      (show decodeChunks ["I-NP"] = .error (.illegalChunkTag 0 "I-NP") from rfl)
    cases same
    exact first
  have fit : (Document.ofSentences "" [mistagged, overrun]).SubjectsFit := by decide
  refine ⟨_, _, accepted, fun lex settings => ?_⟩
  obtain ⟨outOfRange, attributes⟩ := documentOfValue_outOfRange_iff accepted lex settings
  refine ⟨?_, (attributes .default none).2 fit⟩
  rw [Ne, outOfRange]
  rintro ⟨-, n, s, first, overruns⟩
  cases first with
  | here => exact illegal.not_legalTags overruns.legal
  | later inOrder => exact inOrder (.inl ⟨rfl, illegal.not_legalTags⟩)

/-- With two chunk tags for one word, the head of the second noun phrase is looked for beyond the
word. -/
theorem documentOfValue_overrun :
    let word := Json.ofFields [("word", .ofString "it"), ("pos", .ofString "PRP")]
    let tags := Json.arr [.ofString "B-NP", .ofString "B-NP"]
    let sentence := Json.ofFields [("tokens", .arr [word]), ("chunk_tags", tags)]
    let value := Json.ofFields [("doc_id", .ofString ""), ("sentences", .arr [sentence])]
    ∃ doc raw, documentOfValue (some value) = .ok (doc, raw) ∧
      ∀ lex, (doc.prepare lex {} raw).2 = .error .outOfRange := by
  intro word tags sentence value
  exact ⟨_, _, rfl, fun lex => rfl⟩

end AnnotatedText

end Discourse
