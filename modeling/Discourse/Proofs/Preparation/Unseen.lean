import Discourse.Proofs.Preparation.Analysis
/-!
# What the preparation does not see

Before the discourse is analysed a token is read for its word, its tags and its offsets, and is given
its paragraph.  A change of tokens that leaves these alone is unseen: the mentions detected, built
and registered are the same, and so is the reason to stop.  It may as well be made after a stage as
before it, up to the numbering of paragraphs (`initializeMentions_mapTokens`,
`laidOut_mapTokens`).  So it makes no difference at all if it makes none to the analysis of the
discourse (`prepared_mapTokens`).
-/

namespace Discourse

/-- A change of tokens in what nobody reads before the discourse is analysed. -/
structure Token.Unseen (f : Token → Token) : Prop where
  word : ∀ t, (f t).word = t.word
  pos : ∀ t, (f t).pos = t.pos
  ner : ∀ t, (f t).ner = t.ner
  beginChar? : ∀ t, (f t).beginChar? = t.beginChar?
  endChar? : ∀ t, (f t).endChar? = t.endChar?
  /-- The paragraph may be numbered before the change or after it. -/
  numbered : ∀ t paragraph?, f (t.inParagraph paragraph?) = (f t).inParagraph paragraph?

/-- The sentence with every token changed. -/
def Sentence.mapTokens (s : Sentence) (f : Token → Token) : Sentence :=
  { s with tokens := s.tokens.map f }

@[simp]
theorem Sentence.length_mapTokens (s : Sentence) (f : Token → Token) :
    (s.mapTokens f).length = s.length :=
  List.length_map f

namespace Token.Unseen

variable {f : Token → Token}

theorem paragraph? (unseen : Unseen f) (t : Token) : (f t).paragraph? = t.paragraph? :=
  (congrArg Token.paragraph? (unseen.numbered t t.paragraph?) :)

theorem entityTag (unseen : Unseen f) (t : Token) : (f t).entityTag = t.entityTag := by
  rw [Token.entityTag, unseen.ner, Token.entityTag]

theorem isPossessive (unseen : Unseen f) (t : Token) : (f t).isPossessive = t.isPossessive := by
  rw [Token.isPossessive, unseen.word, unseen.pos, Token.isPossessive]

end Token.Unseen

/-! ## Detection -/

section Sentences

variable {f : Token → Token} (unseen : Token.Unseen f)
include unseen

theorem entitySpansFrom_map (run? : Option (Nat × String)) (i : Nat) (ts : List Token) :
    entitySpansFrom run? i (ts.map f) = entitySpansFrom run? i ts := by
  induction ts generalizing run? i with
  | nil => rfl
  | cons t rest ih =>
    simp only [List.map_cons, entitySpansFrom, unseen.entityTag, unseen.isPossessive, ih]

namespace Sentence

variable (s : Sentence)

theorem headByTag_mapTokens (start stop : Nat) :
    (s.mapTokens f).headByTag start stop = s.headByTag start stop := by
  have noun : isNounOrPronoun ∘ f = isNounOrPronoun := by
    funext t
    rw [Function.comp_apply, isNounOrPronoun, unseen.pos, isNounOrPronoun]
  rw [headByTag, headByTag, mapTokens, ← List.map_take, ← List.map_drop, lastIndexWhere?,
    ← List.map_reverse, List.findIdx?_map, noun, List.length_map, lastIndexWhere?]

theorem findHead_mapTokens (start stop : Nat) :
    (s.mapTokens f).findHead start stop = s.findHead start stop := by
  rw [findHead, findHead, length_mapTokens, s.headByTag_mapTokens unseen]
  rfl

theorem withHead_mapTokens : (s.mapTokens f).withHead = s.withHead := by
  funext span
  rw [withHead, withHead, s.findHead_mapTokens unseen]

theorem isSpurious_mapTokens : (s.mapTokens f).isSpurious = s.isSpurious := by
  funext span
  have head : (span.head?.bind fun head => (s.mapTokens f).tokens[head]?) =
      (span.head?.bind fun head => s.tokens[head]?).map f := by
    rw [Option.map_bind]
    simp only [mapTokens, List.getElem?_map]
    rfl
  rw [isSpurious, isSpurious, head, mapTokens, List.getElem?_map]
  cases s.tokens[span.start]? with
  | none => rfl
  | some first =>
    simp only [Option.map_some, unseen.word]
    cases span.head?.bind fun head => s.tokens[head]? with
    | none => rfl
    | some head => simp only [Option.map_some, unseen.word, unseen.ner]

theorem absorbWith_mapTokens : (s.mapTokens f).absorbWith = s.absorbWith := by
  have separated (span : MentionSpan) :
      (s.mapTokens f).isSeparatedAfter span = s.isSeparatedAfter span := by
    rw [isSeparatedAfter, mapTokens, List.getElem?_map, isSeparatedAfter]
    cases s.tokens[span.stop]? with
    | none => rfl
    | some t => simp only [Option.map_some, unseen.pos]
  funext candidates outer
  simp only [absorbWith, absorbs, separated]

theorem detectMentions_mapTokens : (s.mapTokens f).detectMentions = s.detectMentions := by
  have named : (s.mapTokens f).namedEntitySpans = s.namedEntitySpans :=
    entitySpansFrom_map unseen none 0 s.tokens
  have kept (spans : List MentionSpan) :
      (s.mapTokens f).removeSpurious spans = s.removeSpurious spans := by
    rw [removeSpurious, s.isSpurious_mapTokens unseen, s.absorbWith_mapTokens unseen,
      removeSpurious]
  have phrases : (s.mapTokens f).phraseSpans = s.phraseSpans := rfl
  simp only [detectMentions, named, phrases, s.withHead_mapTokens unseen, kept]

end Sentence

/-! ## Building -/

theorem mentionOfTokens_mapTokens (lex : Lexicon) (s : Sentence) (i : Nat) (id : MentionId)
    (span : MentionSpan) (headAt : Nat) (first head : Token) :
    mentionOfTokens lex (s.mapTokens f) i id span headAt (f first) (f head) =
      mentionOfTokens lex s i id span headAt first head := by
  have text : (s.mapTokens f).spanText span.start span.stop =
      s.spanText span.start span.stop := by
    have words : Token.word ∘ f = Token.word := funext unseen.word
    rw [Sentence.spanText, Sentence.mapTokens, ← List.map_take, ← List.map_drop, List.map_map,
      words, Sentence.spanText]
  have type : inferType lex (span.stop - span.start) (f head) =
      inferType lex (span.stop - span.start) head := by
    simp only [inferType, unseen.word, unseen.pos, unseen.ner]
  simp only [mentionOfTokens, text, type, unseen.word, unseen.pos, unseen.ner]

theorem buildMention_mapTokens (lex : Lexicon) (s : Sentence) (i : Nat) (id : MentionId)
    (span : MentionSpan) :
    buildMention lex (s.mapTokens f) i id span = buildMention lex s i id span := by
  have within : span.isWithin (s.mapTokens f) = span.isWithin s := by
    rw [MentionSpan.isWithin, Sentence.length_mapTokens, MentionSpan.isWithin]
  rw [buildMention_eq, buildMention_eq, within, s.findHead_mapTokens unseen]
  refine if_congr Iff.rfl rfl (bind_congr fun headAt => ?_)
  simp only [Sentence.mapTokens, List.getElem?_map]
  cases s.tokens[span.start]? with
  | none => rfl
  | some first =>
    cases s.tokens[headAt]? with
    | none => rfl
    | some head =>
      exact congrArg (fun m => Except.ok (some m))
        (mentionOfTokens_mapTokens unseen lex s i id span headAt first head)

theorem buildMentions_map (lex : Lexicon) (next : MentionId) (entries : List PlacedSpan) :
    buildMentions lex next (entries.map fun entry => (entry.1, entry.2.1.mapTokens f, entry.2.2)) =
      buildMentions lex next entries := by
  induction entries generalizing next with
  | nil => rfl
  | cons entry rest ih =>
    simp only [List.map_cons, buildMentions, buildMention_mapTokens unseen, ih]

/-- The same mentions are built, up to the same fault. -/
theorem buildMentions_mapTokens (lex : Lexicon) (next : MentionId) (sentences : List Sentence)
    (rows : List (List MentionSpan)) :
    buildMentions lex next (spansOf (sentences.map (·.mapTokens f)) rows) =
      buildMentions lex next (spansOf sentences rows) := by
  rw [← buildMentions_map unseen lex next (spansOf sentences rows)]
  refine congrArg (buildMentions lex next) ?_
  rw [spansOf, List.zip_map_left, List.zipIdx_map, List.flatMap_map, spansOf, List.map_flatMap]
  simp only [List.map_map]
  rfl

end Sentences

/-! ## Tokens of a document -/

namespace Document

variable {f : Token → Token} (doc : Document)

theorem mapTokens_mapTokens (f g : Token → Token) :
    (doc.mapTokens f).mapTokens g = doc.mapTokens (g ∘ f) := by
  have sentences : (doc.sentences.map (·.mapTokens f)).map (·.mapTokens g) =
      doc.sentences.map (·.mapTokens (g ∘ f)) := by
    rw [List.map_map]
    refine List.map_congr_left fun s _ => ?_
    simp only [Function.comp_apply, Sentence.mapTokens, List.map_map]
  exact congrArg (fun sentences => { doc with sentences }) sentences

theorem withTokens_mapTokens (ts : List Token) :
    (doc.mapTokens f).withTokens ts = doc.withTokens ts := by
  have dealt : ∀ (sentences : List Sentence) (ts : List Token),
      dealTokens (sentences.map (·.mapTokens f)) ts = dealTokens sentences ts := by
    intro sentences
    induction sentences with
    | nil => exact fun _ => rfl
    | cons s rest ih =>
      intro ts
      simp only [List.map_cons, dealTokens, Sentence.length_mapTokens, ih]
      rfl
  exact congrArg (fun sentences => { doc with sentences }) (dealt doc.sentences ts)

theorem mapTokens_withTokens (ts : List Token) :
    (doc.withTokens ts).mapTokens f = doc.withTokens (ts.map f) := by
  have dealt : ∀ (sentences : List Sentence) (ts : List Token),
      (dealTokens sentences ts).map (·.mapTokens f) = dealTokens sentences (ts.map f) := by
    intro sentences
    induction sentences with
    | nil => exact fun _ => rfl
    | cons s rest ih =>
      intro ts
      rw [dealTokens, List.map_cons, ih, dealTokens, ← List.map_take, ← List.map_drop]
      rfl
  exact congrArg (fun sentences => { doc with sentences }) (dealt doc.sentences ts)

/-- Mentions are marked alike by what their heads say, if that is not what changes. -/
theorem markHeads_mapTokens {g : Option Token → Mention → Mention}
    (blind : ∀ head?, g (head?.map f) = g head?) :
    (doc.mapTokens f).markHeads g = (doc.markHeads g).mapTokens f := by
  have head (m : Mention) : (doc.mapTokens f).headToken? m = (doc.headToken? m).map f :=
    doc.tokenAt?_mapTokens f m.sentence m.head
  rw [markHeads, markHeads]
  simp only [head, blind]
  exact List.foldl_hom (fun d : Document => d.mapTokens f) fun _ _ => rfl

/-! ## Registration -/

section Stages

variable (unseen : Token.Unseen f)
include unseen

theorem takeGold_mapTokens (lex : Lexicon) (gold? : Option (List (List MentionSpan))) :
    (doc.mapTokens f).takeGold lex gold? =
      ((doc.takeGold lex gold?).1.mapTokens f, (doc.takeGold lex gold?).2) := by
  unfold takeGold
  cases gold? with
  | none => rfl
  | some rows =>
    have same := buildMentions_mapTokens unseen lex 0 doc.sentences rows
    have sentences : (doc.mapTokens f).sentences = doc.sentences.map (·.mapTokens f) := rfl
    dsimp only
    rw [sentences, same, List.length_map]
    obtain ⟨built, stop?⟩ := buildMentions lex 0 (spansOf doc.sentences rows)
    cases stop? with
    | some stop => rfl
    | none =>
      simp only [deriveAntecedents_eq]
      rfl

omit unseen in
theorem registerAll_mapTokens (entries : List (Mention × Nat)) :
    (doc.mapTokens f).registerAll entries =
      ((doc.registerAll entries).1.mapTokens f, (doc.registerAll entries).2) := by
  induction entries generalizing doc with
  | nil => rfl
  | cons entry rest ih =>
    obtain ⟨m, place⟩ := entry
    have subtree : (doc.mapTokens f).subtreeOf m = doc.subtreeOf m := by
      have parse : ((doc.mapTokens f).sentences[m.sentence]?).bind Sentence.parse? =
          (doc.sentences[m.sentence]?).bind Sentence.parse? := by
        rw [mapTokens, List.getElem?_map, Option.bind_map]
        rfl
      rw [subtreeOf, parse, subtreeOf]
    rw [registerAll, subtree, registerAll]
    cases doc.subtreeOf m with
    | error stop => rfl
    | ok subtree? => exact ih (doc.register place { m with subtree? })

omit unseen in
theorem fillMentions_mapTokens (rows : List (List Mention)) :
    (doc.mapTokens f).fillMentions rows =
      ((doc.fillMentions rows).1.mapTokens f, (doc.fillMentions rows).2) := by
  have cleared : { doc.mapTokens f with
        predicted := (doc.mapTokens f).sentences.map fun _ => [] } =
      ({ doc with predicted := doc.sentences.map fun _ => [] } : Document).mapTokens f := by
    simp only [mapTokens, List.map_map]
    rfl
  rw [fillMentions, cleared, registerAll_mapTokens, fillMentions]
  obtain ⟨filled, stop?⟩ := registerAll _ _
  cases stop? with
  | some stop => rfl
  | none => rfl

omit unseen in
theorem findTwins_mapTokens (policy : TwinPolicy) (rows : List (List Mention)) :
    (doc.mapTokens f).findTwins policy rows =
      ((doc.findTwins policy rows).1.mapTokens f, (doc.findTwins policy rows).2) := by
  rw [findTwins, findTwins]
  have same : (doc.mapTokens f).gold?.isNone = doc.gold?.isNone := rfl
  rw [same]
  split <;> rfl

theorem initializeMentions_mapTokens (lex : Lexicon) (policy : TwinPolicy) (raw : RawMentions) :
    (doc.mapTokens f).initializeMentions lex policy raw =
      ((doc.initializeMentions lex policy raw).1.mapTokens f,
        (doc.initializeMentions lex policy raw).2) := by
  rw [initializeMentions, doc.takeGold_mapTokens unseen, initializeMentions]
  obtain ⟨taken, next, stop?⟩ := doc.takeGold lex raw.gold?
  cases stop? with
  | some stop => rfl
  | none =>
    have same := buildMentions_mapTokens unseen lex next taken.sentences raw.predicted
    have sentences : (taken.mapTokens f).sentences = taken.sentences.map (·.mapTokens f) := rfl
    dsimp only
    rw [sentences, same, List.length_map]
    obtain ⟨built, stop?⟩ := buildMentions lex next (spansOf taken.sentences raw.predicted)
    cases stop? with
    | some stop => rfl
    | none =>
      dsimp only
      rw [findTwins_mapTokens]
      dsimp only
      rw [fillMentions_mapTokens]
      generalize taken.findTwins policy _ = twins
      obtain ⟨filled, stop?⟩ := twins.1.fillMentions twins.2
      cases stop? with
      | some stop => rfl
      | none => rfl

/-! ## Relations and paragraphs -/

theorem markSentence_mapTokens (ids : List MentionId) (sentence : Nat) :
    (doc.mapTokens f).markSentence ids sentence =
      (doc.markSentence ids sentence).mapTokens f := by
  have lists : (doc.mapTokens f).markLists ids = (doc.markLists ids).mapTokens f :=
    List.foldl_hom (fun d : Document => d.mapTokens f) fun _ _ => rfl
  have appositions (d : Document) (pairs : List (Nat × Nat)) :
      (d.mapTokens f).markAppositions ids pairs = (d.markAppositions ids pairs).mapTokens f :=
    List.foldl_hom (fun d : Document => d.mapTokens f) fun _ _ => rfl
  have predicates (d : Document) (pairs : List (Nat × Nat)) :
      (d.mapTokens f).markPredicates ids pairs = (d.markPredicates ids pairs).mapTokens f :=
    List.foldl_hom (fun d : Document => d.mapTokens f) fun _ _ => rfl
  have copulas (graph : DependencyGraph) (ts : List Token) :
      graph.copulaPairs (ts.map f) = graph.copulaPairs ts := by
    simp only [DependencyGraph.copulaPairs, List.getElem?_map, Option.map_map]
    have relative : (fun t : Token => Text.startsWith "W" t.pos) ∘ f =
        fun t => Text.startsWith "W" t.pos := funext fun t => by
      rw [Function.comp_apply, unseen.pos]
    rw [relative]
  have here : ((doc.markLists ids).mapTokens f).sentences[sentence]? =
      ((doc.markLists ids).sentences[sentence]?).map (·.mapTokens f) :=
    List.getElem?_map
  simp only [markSentence, lists, here]
  cases (doc.markLists ids).sentences[sentence]? with
  | none => rfl
  | some s =>
    have graph : (s.mapTokens f).dependencies? = s.dependencies? := rfl
    dsimp only [Option.map_some]
    rw [graph]
    cases s.dependencies? with
    | none => rfl
    | some graph =>
      have tokens : (s.mapTokens f).tokens = s.tokens.map f := rfl
      dsimp only
      rw [appositions, predicates, tokens, copulas]

theorem markRelations_mapTokens :
    (doc.mapTokens f).markRelations = doc.markRelations.mapTokens f :=
  List.foldl_hom (fun d : Document => d.mapTokens f) fun d entry => d.markSentence_mapTokens unseen entry.1 entry.2

omit unseen in
theorem numberAfter_map (offsets : ∀ t, (f t).beginChar? = t.beginChar? ∧ (f t).endChar? = t.endChar?)
    (gap last : Nat) (before? : Option Token) (t : Token) :
    numberAfter gap last (before?.map f) (f t) = numberAfter gap last before? t := by
  have beyond (v : Token) : (f v).StartsBeyond gap (f t) ↔ v.StartsBeyond gap t := by
    rw [Token.StartsBeyond, Token.textEnd?, (offsets v).1, (offsets v).2, (offsets t).1]
    rfl
  cases before? <;> simp [numberAfter, beyond]

theorem marksAfter_map (gap last : Nat) (before? : Option Token) (ts : List Token) :
    marksAfter gap last (before?.map f) (ts.map f) =
      ((marksAfter gap last before? ts).1.map f, (marksAfter gap last before? ts).2) := by
  have offsets (t : Token) : (f t).beginChar? = t.beginChar? ∧ (f t).endChar? = t.endChar? :=
    ⟨unseen.beginChar? t, unseen.endChar? t⟩
  have same (t : Token) : (f t).isPlaced = t.isPlaced := congrArg Option.isSome (offsets t).1
  induction ts generalizing last before? with
  | nil => rfl
  | cons t rest ih =>
    rw [List.map_cons]
    by_cases placed : t.isPlaced = true
    · have later := ih (numberAfter gap last before? t) (some t)
      rw [Option.map_some] at later
      rw [marksAfter_placed ((same t).trans placed), marksAfter_placed placed,
        numberAfter_map offsets, later, List.map_cons, unseen.numbered]
    · rw [marksAfter_unplaced ((same t).symm ▸ placed), marksAfter_unplaced placed, ih,
        List.map_cons, unseen.numbered]

theorem numbered_mapTokens (gap : Nat) :
    (doc.mapTokens f).numbered gap = (doc.numbered gap).mapTokens f := by
  have blind (head? : Option Token) :
      (head?.map f).bind Token.paragraph? = head?.bind Token.paragraph? := by
    have same : Token.paragraph? ∘ f = Token.paragraph? := funext unseen.paragraph?
    rw [Option.bind_map, same]
  have marks : marksAfter gap 0 none (doc.tokens.map f) =
      ((marksAfter gap 0 none doc.tokens).1.map f, (marksAfter gap 0 none doc.tokens).2) :=
    marksAfter_map unseen gap 0 none doc.tokens
  rw [numbered, tokens_mapTokens, marks, inParagraphs]
  dsimp only
  rw [withTokens_mapTokens, ← mapTokens_withTokens, markHeads_mapTokens _ fun head? => by rw [blind]]
  rfl

theorem gapFits_mapTokens {gap : Nat} : (doc.mapTokens f).GapFits gap ↔ doc.GapFits gap := by
  have placed : Token.isPlaced ∘ f = Token.isPlaced :=
    funext fun t => congrArg Option.isSome (unseen.beginChar? t)
  have fits (t : Token) : (f t).EndFits gap ↔ t.EndFits gap := by
    rw [Token.EndFits, Token.textEnd?, unseen.beginChar?, unseen.endChar?]
    rfl
  rw [GapFits, tokens_mapTokens, List.filter_map, placed, ← List.map_dropLast, List.forall_mem_map]
  simp only [fits]
  rfl

/-- A change that is unseen is still to be made when the discourse is analysed. -/
theorem laidOut_mapTokens (settings : PreparationSettings) :
    (doc.mapTokens f).laidOut settings = (doc.laidOut settings).mapTokens f := by
  have sorted : (doc.mapTokens f).reorderMentions = doc.reorderMentions.mapTokens f := rfl
  rw [laidOut, sorted, markRelations_mapTokens _ unseen, numbered_mapTokens _ unseen, laidOut]

end Stages

/-! ## The whole preparation -/

theorem marked_laidOut (settings : PreparationSettings) :
    (doc.laidOut settings).marked = doc.marked := by
  obtain ⟨mentions, paragraphs, eq⟩ :=
    doc.reorderMentions.markRelations.numbered_eq settings.paragraphGap
  rw [laidOut, eq]
  exact doc.sameButMentions_markRelations.marked

/-- The prepared document with its counts, or the reason why there is none. -/
def prepared (lex : Lexicon) (settings : PreparationSettings) (raw : RawMentions) :
    Except Stop (Document × PreparationSummary) :=
  (doc.prepare lex settings raw).2.map fun counts => ((doc.prepare lex settings raw).1, counts)

theorem completeMentions_mapTokens (unseen : Token.Unseen f) (settings : PreparationSettings)
    (raw : RawMentions) :
    (doc.mapTokens f).completeMentions settings raw = doc.completeMentions settings raw := by
  have detected : (doc.mapTokens f).detectMentions = doc.detectMentions := by
    rw [detectMentions, mapTokens, List.mapM_map]
    exact congrArg (doc.sentences.mapM ·) (funext (Sentence.detectMentions_mapTokens unseen))
  rw [completeMentions, detected, completeMentions]

/-- A change that is not seen at first, and later makes no difference to the discourse, makes none
at all. -/
theorem prepared_mapTokens (unseen : Token.Unseen f) {lex : Lexicon}
    (silent : ∀ d : Document, d.marked = doc.marked →
      (d.mapTokens f).processDiscourse lex = d.processDiscourse lex)
    (settings : PreparationSettings) (raw : RawMentions) :
    (doc.mapTokens f).prepared lex settings raw = doc.prepared lex settings raw := by
  rw [prepared, prepare, doc.completeMentions_mapTokens unseen, prepared, prepare]
  cases doc.completeMentions settings raw with
  | error stop => rfl
  | ok raw =>
    have kept := (doc.sameButMentions_initializeMentions lex settings.twins raw).marked
    dsimp only
    rw [doc.initializeMentions_mapTokens unseen]
    generalize doc.initializeMentions lex settings.twins raw = result at kept ⊢
    obtain ⟨taken, outcome⟩ := result
    cases outcome with
    | error stop => rfl
    | ok twins =>
      have analysed : (taken.mapTokens f).analysed lex settings = taken.analysed lex settings := by
        have same := silent (taken.laidOut settings) ((taken.marked_laidOut settings).trans kept)
        rw [← laidOut_mapTokens _ unseen] at same
        exact congrArg initializeClusters same
      dsimp only
      rw [analyse_eq, analyse_eq, analysed]
      simp only [taken.gapFits_mapTokens unseen]
      split <;> rfl

end Document

end Discourse
