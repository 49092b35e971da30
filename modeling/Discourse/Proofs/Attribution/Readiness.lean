import Discourse.Proofs.Attribution.Course
import Discourse.Proofs.Dialogue.Quoting
/-!
# Getting ready for attribution

Before its first sieve an attribution finds quotations and entity mentions where none were given,
and lets the tokens point at the entity mentions.  None of this is done twice: a document that has
been made ready is ready (`ready_readyForAttribution`), and stays so whatever is written to its
quotations.  A document in which nothing was found is no exception, since neither search looks at
what the first one leaves behind.
-/

namespace Discourse

/-- The token without its entity mention. -/
def Token.unindexed (t : Token) : Token := { t with entity? := none }

/-- The sentence without the entity mentions of its tokens. -/
def Sentence.unindexed (s : Sentence) : Sentence :=
  { s with tokens := s.tokens.map Token.unindexed }

theorem Sentence.length_unindexed (s : Sentence) : s.unindexed.length = s.length :=
  List.length_map _

theorem quoteRanges_unindexed (open? : Option Nat) (i : Nat) (ts : List Token) :
    quoteRanges open? i (ts.map Token.unindexed) = quoteRanges open? i ts := by
  induction ts generalizing open? i with
  | nil => rfl
  | cons t rest ih =>
    rw [List.map_cons]
    cases open? <;> simp only [quoteRanges, ih] <;> rfl

theorem tagRunsFrom_unindexed (run? : Option (Nat × String)) (i : Nat) (ts : List Token) :
    tagRunsFrom run? i (ts.map Token.unindexed) = tagRunsFrom run? i ts := by
  induction ts generalizing run? i with
  | nil => rfl
  | cons t rest ih =>
    rw [List.map_cons]
    cases run? <;> simp only [tagRunsFrom, ih] <;> rfl

/-- Whether a sentence has a run of tokens that names an entity. -/
def Sentence.hasEntityRun (s : Sentence) : Bool :=
  (tagRunsFrom none 0 s.tokens).any fun run => isEntityTag run.2.2

theorem Sentence.hasEntityRun_unindexed (s : Sentence) :
    s.unindexed.hasEntityRun = s.hasEntityRun := by
  rw [hasEntityRun, unindexed, tagRunsFrom_unindexed, hasEntityRun]

namespace Document

theorem detectQuotes_eq_nil_iff (doc : Document) :
    doc.detectQuotes = [] ↔ quoteRanges none 0 doc.tokens = [] := by
  rw [detectQuotes, List.map_eq_nil_iff, List.zipIdx_eq_nil_iff]

theorem entityMentions_eq_nil_iff (doc : Document) :
    doc.entityMentions = [] ↔ ∀ s ∈ doc.sentences, s.hasEntityRun = false := by
  have linked (es : List EntityMention) : linkCanonical es = [] ↔ es = [] := by
    rw [linkCanonical, List.map_eq_nil_iff, List.zipIdx_eq_nil_iff, List.map_eq_nil_iff]
  have silent (s : Sentence) (sentence offset : Nat) :
      s.entityMentions sentence offset = [] ↔ s.hasEntityRun = false := by
    rw [Sentence.entityMentions, List.map_eq_nil_iff, List.filter_eq_nil_iff,
      Sentence.hasEntityRun, List.any_eq_false]
  rw [entityMentions, linked, List.flatMap_eq_nil_iff]
  constructor
  · intro none s mem
    obtain ⟨i, here⟩ := List.getElem?_of_mem mem
    exact (silent s i (doc.offset i)).mp (none (s, i) (List.mem_zipIdx_iff_getElem?.mpr here))
  · rintro none ⟨s, i⟩ mem
    exact (silent s i _).mpr (none s (List.mem_of_getElem? (List.mem_zipIdx_iff_getElem?.mp mem)))

/-! ## Pointing at entity mentions -/

section Dealing

variable {sentences : List Sentence} {ts : List Token}

theorem dealTokens_flatMap_tokens (sentences : List Sentence) :
    dealTokens sentences (sentences.flatMap Sentence.tokens) = sentences := by
  induction sentences with
  | nil => rfl
  | cons s rest ih =>
    rw [dealTokens, List.flatMap_cons, Sentence.length, List.take_left, List.drop_left, ih]

theorem withTokens_tokens (doc : Document) : doc.withTokens doc.tokens = doc := by
  rw [withTokens, tokens, dealTokens_flatMap_tokens]

theorem map_unindexed_dealTokens
    (same : ts.map Token.unindexed = (sentences.flatMap Sentence.tokens).map Token.unindexed) :
    (dealTokens sentences ts).map Sentence.unindexed = sentences.map Sentence.unindexed := by
  induction sentences generalizing ts with
  | nil => rfl
  | cons s rest ih =>
    rw [List.flatMap_cons, List.map_append] at same
    have first : (ts.take s.length).map Token.unindexed = s.tokens.map Token.unindexed := by
      rw [List.map_take, same, ← s.length_unindexed]
      exact List.take_left
    have others : (ts.drop s.length).map Token.unindexed =
        (rest.flatMap Sentence.tokens).map Token.unindexed := by
      rw [List.map_drop, same, ← s.length_unindexed]
      exact List.drop_left
    rw [dealTokens, List.map_cons, List.map_cons, ih others, Sentence.unindexed, first]
    rfl

end Dealing

/-- A token that points at the entity mention which covers its place. -/
def pointed (entities : List EntityMention) (entry : Token × Nat) : Token :=
  match coveringEntity? entities entry.2 with
  | some place => { entry.1 with entity? := some place }
  | none => entry.1

theorem tokens_indexEntities (doc : Document) :
    doc.indexEntities.tokens = doc.tokens.zipIdx.map (pointed doc.entities) := by
  refine flatMap_dealTokens ?_
  rw [List.length_map, List.length_zipIdx]
  exact length_flatMap_tokens doc.sentences

theorem unindexed_pointed (entities : List EntityMention) (entry : Token × Nat) :
    (pointed entities entry).unindexed = entry.1.unindexed := by
  unfold pointed
  split <;> rfl

theorem pointed_pointed (entities : List EntityMention) (t : Token) (i : Nat) :
    pointed entities (pointed entities (t, i), i) = pointed entities (t, i) := by
  unfold pointed
  cases coveringEntity? entities i <;> rfl

/-- Pointing at entity mentions changes nothing else in the sentences. -/
theorem sentences_indexEntities (doc : Document) :
    doc.indexEntities.sentences.map Sentence.unindexed =
      doc.sentences.map Sentence.unindexed := by
  refine map_unindexed_dealTokens ?_
  show (doc.tokens.zipIdx.map (pointed doc.entities)).map Token.unindexed = _
  rw [List.map_map, show Token.unindexed ∘ pointed doc.entities = Token.unindexed ∘ Prod.fst from
    funext (unindexed_pointed doc.entities), ← List.map_map, List.zipIdx_map_fst]
  rfl

theorem indexEntities_indexEntities (doc : Document) :
    doc.indexEntities.indexEntities = doc.indexEntities := by
  show doc.indexEntities.withTokens (doc.indexEntities.tokens.zipIdx.map (pointed doc.entities)) = _
  have again : doc.indexEntities.tokens.zipIdx.map (pointed doc.entities) =
      doc.indexEntities.tokens := by
    rw [tokens_indexEntities]
    refine List.ext_getElem? fun i => ?_
    simp only [List.getElem?_map, List.getElem?_zipIdx, Nat.zero_add]
    cases doc.tokens[i]? with
    | none => rfl
    | some t => exact congrArg some (pointed_pointed doc.entities t i)
  rw [again, withTokens_tokens]

theorem lt_of_coveringEntity? {entities : List EntityMention} {token place : Nat}
    (covers : coveringEntity? entities token = some place) : place < entities.length := by
  obtain ⟨entry, mem, rfl⟩ := List.mem_map.mp (List.mem_of_getLast? covers)
  have here := List.mem_zipIdx_iff_getElem?.mp (List.mem_filter.mp mem).1
  exact (List.getElem?_eq_some_iff.mp here).1

theorem EntitiesInRange.indexEntities {doc : Document} (inRange : doc.EntitiesInRange) :
    doc.indexEntities.EntitiesInRange := by
  intro t mem place points
  rw [tokens_indexEntities] at mem
  obtain ⟨⟨u, i⟩, source, rfl⟩ := List.mem_map.mp mem
  unfold pointed at points
  split at points
  next place' covers =>
    cases points
    exact lt_of_coveringEntity? covers
  next =>
    have here := List.mem_zipIdx_iff_getElem?.mp source
    exact inRange u (List.mem_of_getElem? here) place points

/-! ## Ready documents -/

/-- The quotations given, or else those that the glyphs mark. -/
def quotesOrDetected (doc : Document) : List Quotation :=
  if doc.quotes.isEmpty then doc.detectQuotes else doc.quotes

/-- The entity mentions given, or else those that the tags make. -/
def entitiesOrDerived (doc : Document) : List EntityMention :=
  if doc.entities.isEmpty then doc.entityMentions else doc.entities

/-- The document with its quotations and entity mentions found. -/
def furnished (doc : Document) : Document :=
  { doc with quotes := doc.quotesOrDetected, entities := doc.entitiesOrDerived }

theorem readyForAttribution_eq (doc : Document) :
    doc.readyForAttribution = doc.furnished.indexEntities := by
  have quoted : (if doc.quotes.isEmpty then { doc with quotes := doc.detectQuotes } else doc) =
      { doc with quotes := doc.quotesOrDetected } := by
    rw [quotesOrDetected]
    split <;> rfl
  rw [readyForAttribution, quoted, furnished, entitiesOrDerived]
  dsimp only
  split <;> rfl

theorem EntitiesInRange.readyForAttribution {doc : Document} (inRange : doc.EntitiesInRange) :
    doc.readyForAttribution.EntitiesInRange := by
  rw [readyForAttribution_eq]
  refine EntitiesInRange.indexEntities fun t mem place points => ?_
  have inside := inRange t mem place points
  show place < doc.entitiesOrDerived.length
  rw [entitiesOrDerived, if_neg]
  · exact inside
  · rw [List.isEmpty_iff_length_eq_zero]
    omega

/-- Two documents whose tokens differ in their entity mentions alone. -/
def SameText (doc doc' : Document) : Prop :=
  doc'.sentences.map Sentence.unindexed = doc.sentences.map Sentence.unindexed

theorem SameText.tokens {doc doc' : Document} (same : doc.SameText doc') :
    doc'.tokens.map Token.unindexed = doc.tokens.map Token.unindexed := by
  have flat (ss : List Sentence) : (ss.flatMap Sentence.tokens).map Token.unindexed =
      (ss.map Sentence.unindexed).flatMap Sentence.tokens := by
    rw [List.map_flatMap, List.flatMap_map]
    rfl
  rw [Document.tokens, Document.tokens, flat, flat, same]

theorem SameText.detectQuotes_eq_nil_iff {doc doc' : Document} (same : doc.SameText doc') :
    doc'.detectQuotes = [] ↔ doc.detectQuotes = [] := by
  rw [Document.detectQuotes_eq_nil_iff, Document.detectQuotes_eq_nil_iff,
    ← quoteRanges_unindexed, same.tokens, quoteRanges_unindexed]

theorem SameText.entityMentions_eq_nil_iff {doc doc' : Document} (same : doc.SameText doc') :
    doc'.entityMentions = [] ↔ doc.entityMentions = [] := by
  have unindexed (d : Document) : d.entityMentions = [] ↔
      ∀ s ∈ d.sentences.map Sentence.unindexed, s.hasEntityRun = false := by
    simp only [Document.entityMentions_eq_nil_iff, List.forall_mem_map,
      Sentence.hasEntityRun_unindexed]
  rw [unindexed, unindexed, same]

theorem SameText.subjectsFit {doc doc' : Document} (same : doc.SameText doc')
    (fit : doc.SubjectsFit) : doc'.SubjectsFit := by
  refine fit.congr ?_
  have frames (sentences : List Sentence) : (sentences.map Sentence.unindexed).map Sentence.frame =
      sentences.map Sentence.frame := by
    rw [List.map_map]
    exact List.map_congr_left fun s _ => Prod.ext s.length_unindexed rfl
  rw [← frames, same, frames]

/-- There is nothing left to do before the first sieve. -/
structure Ready (doc : Document) : Prop where
  quotes : doc.quotesOrDetected = doc.quotes
  entities : doc.entitiesOrDerived = doc.entities
  indexed : doc.indexEntities = doc

theorem Ready.readyForAttribution {doc : Document} (ready : doc.Ready) :
    doc.readyForAttribution = doc := by
  have furnished : doc.furnished = doc := by rw [furnished, ready.quotes, ready.entities]
  rw [readyForAttribution_eq, furnished, ready.indexed]

section Again

variable {doc doc' : Document}

theorem SameText.quotesOrDetected (same : doc.SameText doc')
    (length : doc'.quotes.length = doc.quotesOrDetected.length) :
    doc'.quotesOrDetected = doc'.quotes := by
  rw [Document.quotesOrDetected]
  split
  next empty =>
    -- no quotation in the second document: there was none to be found in the first one
    rw [List.isEmpty_iff] at empty
    rw [empty, List.length_nil, eq_comm, List.length_eq_zero_iff,
      Document.quotesOrDetected] at length
    rw [empty, same.detectQuotes_eq_nil_iff]
    split at length
    next => exact length
    next given => exact absurd (List.isEmpty_iff.mpr length) given
  next => rfl

theorem SameText.entitiesOrDerived (same : doc.SameText doc')
    (entities : doc'.entities = doc.entitiesOrDerived) :
    doc'.entitiesOrDerived = doc'.entities := by
  rw [Document.entitiesOrDerived]
  split
  next empty =>
    rw [List.isEmpty_iff] at empty
    rw [empty, eq_comm, Document.entitiesOrDerived] at entities
    rw [empty, same.entityMentions_eq_nil_iff]
    split at entities
    next => exact entities
    next given => exact absurd (List.isEmpty_iff.mpr entities) given
  next => rfl

end Again

theorem sameText_readyForAttribution (doc : Document) : doc.SameText doc.readyForAttribution := by
  rw [readyForAttribution_eq]
  exact sentences_indexEntities doc.furnished

/-! ## Success -/

section Success

variable {S : Type} [QuoteScorer S] {doc : Document}

theorem SubjectsFit.passable (fit : doc.SubjectsFit) (lex : Lexicon)
    (settings : AttributionSettings) (scorer? : Option S) : doc.Passable lex settings scorer? :=
  Scene.passable_of_subjectsFit (doc.sameText_readyForAttribution.subjectsFit fit) _

/-- If no token points at an entity mention beyond the list, an attribution succeeds just if the
sieves get over all quotations. -/
theorem EntitiesInRange.afterAttribution_iff (inRange : doc.EntitiesInRange) (lex : Lexicon)
    (settings : AttributionSettings) (scorer? : Option S) :
    (∃ final, doc.afterAttribution lex settings scorer? = .ok final) ↔
      doc.Passable lex settings scorer? := by
  obtain ⟨quotes, mapped⟩ := inRange.readyForAttribution.mapM_canonicalized
    (doc.sieved lex settings scorer?).doc.quotes
  simp only [afterAttribution_eq_ok_iff_passable, mapped]
  exact ⟨fun ⟨_, passable, _⟩ => passable, fun passable => ⟨_, passable, rfl⟩⟩

/-- An attribution stops at a token that points beyond the list of entity mentions, or at a subject
without a place, and nowhere else. -/
theorem attributeQuotes_eq_error {lex : Lexicon} {settings : AttributionSettings}
    {scorer? : Option S} {stop : Stop}
    (stopped : doc.attributeQuotes lex settings scorer? = .error stop) :
    stop = .outOfRange ∧ ¬doc.EntitiesInRange ∨ stop = .overflow ∧ ¬doc.SubjectsFit := by
  by_cases passable : doc.Passable lex settings scorer?
  · have after := passable.afterAttribution
    rw [afterAttribution, map_eq_error_iff.mpr stopped] at after
    obtain ⟨q, -, fails⟩ := exists_mem_of_mapM_eq_error (map_eq_error_iff.mp after.symm)
    refine .inl ⟨(canonicalized_eq_error_iff.mp fails).1, fun inRange => ?_⟩
    obtain ⟨final, outcome⟩ := (inRange.afterAttribution_iff lex settings scorer?).mpr passable
    rw [afterAttribution, map_eq_error_iff.mpr stopped] at outcome
    cases outcome
  · rw [attributeQuotes_of_not_passable passable] at stopped
    cases stopped
    exact .inr ⟨rfl, fun fit => passable (fit.passable lex settings scorer?)⟩

/-- An attribution succeeds if no token points at an entity mention beyond the list and every
subject has a place. -/
theorem EntitiesInRange.afterAttribution (inRange : doc.EntitiesInRange) (fit : doc.SubjectsFit)
    (lex : Lexicon) (settings : AttributionSettings) (scorer? : Option S) :
    ∃ final, doc.afterAttribution lex settings scorer? = .ok final :=
  (inRange.afterAttribution_iff lex settings scorer?).mpr (fit.passable lex settings scorer?)

end Success

/-- A document that has been made ready is ready, whatever has been written to its quotations. -/
theorem ready_readyForAttribution (doc : Document) {quotes : List Quotation}
    (length : quotes.length = doc.readyForAttribution.quotes.length) :
    (doc.readyForAttribution.withQuotes quotes).Ready := by
  have same : doc.SameText (doc.readyForAttribution.withQuotes quotes) :=
    doc.sameText_readyForAttribution
  rw [readyForAttribution_eq] at length same ⊢
  refine ⟨same.quotesOrDetected length, same.entitiesOrDerived rfl, ?_⟩
  exact congrArg (Document.withQuotes · quotes) doc.furnished.indexEntities_indexEntities

end Document

end Discourse
