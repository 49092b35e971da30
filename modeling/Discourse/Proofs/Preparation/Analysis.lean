import Discourse.Preparation
import Discourse.Proofs.Dialogue.Numbering
import Discourse.Proofs.Mention.Registration
/-!
# What the analyses leave alone

The analyses come to an end unless a sum of the numbering of paragraphs is too large (`analyse_eq`).
Between the taking up of mentions and the gathering of gold clusters nothing touches the gold
mentions (`undisturbed_analysed`).  The stages around the analysis of the discourse write mentions and
clusters and nothing else (`SameButMentions`).  And no stage of the preparation, from the first to the
last, writes entity mentions, quotations, or what the tokens say of entity mentions
(`sameEntities_prepare`).
-/

namespace Discourse

/-- Two documents with the same entity mentions at the same tokens, the same quotations and the same
dependencies between the same places. -/
structure Document.SameEntities (doc d : Document) : Prop where
  entities : d.entities = doc.entities
  quotes : d.quotes = doc.quotes
  pointers : d.tokens.map Token.entity? = doc.tokens.map Token.entity?
  frames : d.sentences.map Sentence.frame = doc.sentences.map Sentence.frame

/-- Two documents with the same gold mentions besides. -/
structure Document.Undisturbed (doc d : Document) : Prop extends doc.SameEntities d where
  gold : d.gold? = doc.gold?
  goldMentions : d.goldMentions = doc.goldMentions

theorem UtteranceState.map_entity?_run (st : UtteranceState) (ts : List Token) :
    (st.run ts).1.map Token.entity? = ts.map Token.entity? := by
  induction ts generalizing st with
  | nil => rfl
  | cons t rest ih =>
    rw [run, List.map_cons, List.map_cons]
    exact congrArg _ (ih _)

namespace Document

namespace SameEntities

variable {doc d d' : Document}

theorem refl (doc : Document) : doc.SameEntities doc := ⟨rfl, rfl, rfl, rfl⟩

theorem trans (h : doc.SameEntities d) (h' : d.SameEntities d') : doc.SameEntities d' where
  entities := h'.entities.trans h.entities
  quotes := h'.quotes.trans h.quotes
  pointers := h'.pointers.trans h.pointers
  frames := h'.frames.trans h.frames

end SameEntities

namespace Undisturbed

variable {doc d d' : Document}

theorem refl (doc : Document) : doc.Undisturbed doc := ⟨.refl doc, rfl, rfl⟩

theorem trans (h : doc.Undisturbed d) (h' : d.Undisturbed d') : doc.Undisturbed d' where
  toSameEntities := h.toSameEntities.trans h'.toSameEntities
  gold := h'.gold.trans h.gold
  goldMentions := h'.goldMentions.trans h.goldMentions

/-- What each step leaves alone, a run leaves alone. -/
theorem foldl {α : Type} {f : Document → α → Document}
    (step : ∀ (d : Document) x, d.Undisturbed (f d x))
    (doc : Document) (xs : List α) : doc.Undisturbed (xs.foldl f doc) :=
  List.foldlRecOn (motive := doc.Undisturbed) xs f (.refl doc)
    fun d same x _ => same.trans (step d x)

theorem modifyMention (doc : Document) (id : MentionId) (f : Mention → Mention) :
    doc.Undisturbed (doc.modifyMention id f) := ⟨⟨rfl, rfl, rfl, rfl⟩, rfl, rfl⟩

theorem markHeads (doc : Document) (f : Option Token → Mention → Mention) :
    doc.Undisturbed (doc.markHeads f) :=
  .foldl (fun d _ => .modifyMention d _ _) doc _

/-- Other tokens that say the same of entity mentions. -/
theorem withTokens (doc : Document) {ts : List Token}
    (same : ts.map Token.entity? = doc.tokens.map Token.entity?) :
    doc.Undisturbed (doc.withTokens ts) := by
  have length : ts.length = tokensIn doc.sentences := by
    have lengths := congrArg List.length same
    rw [List.length_map, List.length_map] at lengths
    rw [lengths]
    exact length_flatMap_tokens doc.sentences
  refine ⟨⟨rfl, rfl, ?_, map_frame_dealTokens length⟩, rfl, rfl⟩
  rw [show (doc.withTokens ts).tokens = ts from flatMap_dealTokens length]
  exact same

theorem mapTokens (doc : Document) {f : Token → Token}
    (keeps : ∀ t, (f t).entity? = t.entity?) : doc.Undisturbed (doc.mapTokens f) := by
  refine ⟨⟨rfl, rfl, ?_, ?_⟩, rfl, rfl⟩
  · rw [tokens_mapTokens, List.map_map]
    exact List.map_congr_left fun t _ => keeps t
  · show (doc.sentences.map _).map Sentence.frame = _
    rw [List.map_map]
    exact List.map_congr_left fun s _ => Prod.ext (List.length_map f) rfl

end Undisturbed

/-! ## The stages of the analysis -/

theorem foldl_eq_of_mentions {α : Type} {f : Document → α → Document}
    (step : ∀ (d : Document) x, ∃ mentions, f d x = { d with mentions }) (doc : Document)
    (xs : List α) : ∃ mentions, xs.foldl f doc = { doc with mentions } := by
  refine List.foldlRecOn (motive := fun d => ∃ mentions, d = { doc with mentions }) xs f
    ⟨doc.mentions, rfl⟩ ?_
  rintro _ ⟨mentions, rfl⟩ x -
  obtain ⟨mentions', eq⟩ := step { doc with mentions } x
  exact ⟨mentions', eq⟩

theorem markSentence_eq (doc : Document) (ids : List MentionId) (sentence : Nat) :
    ∃ mentions, doc.markSentence ids sentence = { doc with mentions } := by
  obtain ⟨listed, lists⟩ : ∃ mentions, doc.markLists ids = { doc with mentions } :=
    foldl_eq_of_mentions (fun _ _ => ⟨_, rfl⟩) doc _
  rw [markSentence]
  split
  · exact ⟨listed, lists⟩
  · split
    · exact ⟨listed, lists⟩
    next graph _ =>
      obtain ⟨apposed, appositions⟩ : ∃ mentions,
          (doc.markLists ids).markAppositions ids graph.appositionPairs =
            { doc.markLists ids with mentions } :=
        foldl_eq_of_mentions (fun _ _ => ⟨_, rfl⟩) _ _
      rw [appositions, lists]
      exact foldl_eq_of_mentions (fun _ _ => ⟨_, rfl⟩) _ _

/-- The relations are marked at the mentions and nowhere else. -/
theorem markRelations_eq (doc : Document) :
    ∃ mentions, doc.markRelations = { doc with mentions } := by
  have step (d : Document) (entry : List MentionId × Nat) :
      ∃ mentions, d.markSentence entry.1 entry.2 = { d with mentions } :=
    d.markSentence_eq entry.1 entry.2
  exact foldl_eq_of_mentions step doc _

/-- The document related and cut into paragraphs, ready for the analysis of its discourse, by sums
of any size. -/
def laidOut (doc : Document) (settings : PreparationSettings) : Document :=
  doc.reorderMentions.markRelations.numbered settings.paragraphGap

/-- The document analysed, by sums of any size. -/
def analysed (doc : Document) (lex : Lexicon) (settings : PreparationSettings) : Document :=
  ((doc.laidOut settings).processDiscourse lex).initializeClusters

theorem undisturbed_numbered (doc : Document) (gap : Nat) :
    doc.Undisturbed (doc.numbered gap) := by
  have pointers := congrArg (List.map Token.entity?)
    (map_inParagraph_marksAfter gap 0 none doc.tokens)
  rw [List.map_map, List.map_map] at pointers
  have marked : doc.Undisturbed ((doc.withTokens (marksAfter gap 0 none doc.tokens).1).markHeads
      fun head? m => { m with paragraph? := head?.bind Token.paragraph? }) :=
    (Undisturbed.withTokens doc pointers).trans (.markHeads _ _)
  exact marked.trans ⟨⟨rfl, rfl, rfl, rfl⟩, rfl, rfl⟩

theorem undisturbed_markDiscourse (doc : Document) : doc.Undisturbed doc.markDiscourse := by
  have uttered (doc : Document) : doc.Undisturbed doc.setUtterances :=
    (Undisturbed.withTokens doc (UtteranceState.map_entity?_run _ doc.tokens)).trans
      ⟨⟨rfl, rfl, rfl, rfl⟩, rfl, rfl⟩
  have bare : doc.Undisturbed (if doc.marked then doc else doc.dropMarks) := by
    split
    · exact .refl doc
    · exact .mapTokens doc fun _ => rfl
  have marked := (bare.trans (uttered _)).trans (.markHeads _ fun head? m =>
    { m with utterance := (head?.map Token.utterance).getD 0 })
  exact marked.trans ⟨⟨rfl, rfl, rfl, rfl⟩, rfl, rfl⟩

theorem undisturbed_giveTurns (doc : Document) (lex : Lexicon) (announced? : Option String)
    (runs : List (Nat × Nat)) : doc.Undisturbed (doc.giveTurns lex announced? runs) := by
  induction runs generalizing doc announced? with
  | nil => exact .refl doc
  | cons run rest ih =>
    rw [giveTurns]
    refine Undisturbed.trans ?_ (ih _ _)
    split
    · exact .refl doc
    · split
      · exact ⟨⟨rfl, rfl, rfl, rfl⟩, rfl, rfl⟩
      · exact .refl doc

theorem undisturbed_findSpeakers (doc : Document) (lex : Lexicon) :
    doc.Undisturbed (doc.findSpeakers lex) := by
  have named (d : Document) (t : Table Nat String) : d.Undisturbed { d with speakers := t } :=
    ⟨⟨rfl, rfl, rfl, rfl⟩, rfl, rfl⟩
  rw [findSpeakers]
  refine Undisturbed.trans ?_ (named _ _)
  split
  · exact .refl doc
  · split
    · exact (named _ _).trans (undisturbed_giveTurns _ lex none _)
    · exact named _ _

theorem undisturbed_processDiscourse (doc : Document) (lex : Lexicon) :
    doc.Undisturbed (doc.processDiscourse lex) := by
  have described (d : Document) : d.Undisturbed d.describeSpeakers :=
    ⟨⟨rfl, rfl, rfl, rfl⟩, rfl, rfl⟩
  have reconciled (d : Document) : d.Undisturbed d.reconcileSpeakers :=
    ⟨⟨rfl, rfl, rfl, rfl⟩, rfl, rfl⟩
  have marked (d : Document) : d.Undisturbed d.markSpeakers :=
    .mapTokens d fun t => by split <;> rfl
  have paired (d : Document) : d.Undisturbed d.findSpeakerPairs := by
    rw [findSpeakerPairs]
    split
    · exact .refl d
    · exact ⟨⟨rfl, rfl, rfl, rfl⟩, rfl, rfl⟩
  have found := (undisturbed_markDiscourse doc).trans (undisturbed_findSpeakers _ lex)
  exact (((found.trans (described _)).trans (reconciled _)).trans (marked _)).trans (paired _)

/-- The analyses leave gold mentions and entity mentions alone. -/
theorem undisturbed_analysed (doc : Document) (lex : Lexicon) (settings : PreparationSettings) :
    doc.Undisturbed (doc.analysed lex settings) := by
  have sorted : doc.Undisturbed doc.reorderMentions := ⟨⟨rfl, rfl, rfl, rfl⟩, rfl, rfl⟩
  have related : doc.Undisturbed doc.reorderMentions.markRelations := by
    obtain ⟨mentions, marked⟩ := doc.reorderMentions.markRelations_eq
    rw [marked]
    exact sorted.trans ⟨⟨rfl, rfl, rfl, rfl⟩, rfl, rfl⟩
  have started (d : Document) (id : MentionId) : d.Undisturbed (d.startCluster id) :=
    ⟨⟨rfl, rfl, rfl, rfl⟩, rfl, rfl⟩
  have clustered (d : Document) : d.Undisturbed d.initializeClusters :=
    Undisturbed.trans (d := { d with clusters := {} }) ⟨⟨rfl, rfl, rfl, rfl⟩, rfl, rfl⟩
      (.foldl started _ _)
  exact ((related.trans (undisturbed_numbered _ _)).trans
    (undisturbed_processDiscourse _ lex)).trans (clustered _)

/-! ## The whole preparation -/

/-- The document with the mentions and the clusters of another one. -/
def withMentionsOf (doc d : Document) : Document :=
  { doc with
    predicted := d.predicted, gold? := d.gold?
    mentions := d.mentions, goldMentions := d.goldMentions
    positions := d.positions, allPositions := d.allPositions, headed := d.headed
    clusters := d.clusters, goldClusters := d.goldClusters }

/-- Two documents that differ in their mentions and clusters only. -/
structure SameButMentions (doc d : Document) : Prop where
  eq : d = doc.withMentionsOf d

namespace SameButMentions

variable {doc d d' : Document}

theorem refl (doc : Document) : doc.SameButMentions doc := ⟨rfl⟩

theorem trans (h : doc.SameButMentions d) (h' : d.SameButMentions d') : doc.SameButMentions d' where
  eq := calc
    d' = d.withMentionsOf d' := h'.eq
    _ = (doc.withMentionsOf d).withMentionsOf d' := by rw [← h.eq]
    _ = doc.withMentionsOf d' := rfl

theorem foldl {α : Type} {f : Document → α → Document}
    (step : ∀ (d : Document) x, d.SameButMentions (f d x))
    (doc : Document) (xs : List α) : doc.SameButMentions (xs.foldl f doc) :=
  List.foldlRecOn (motive := doc.SameButMentions) xs f (.refl doc)
    fun d same x _ => same.trans (step d x)

theorem sentences (h : doc.SameButMentions d) : d.sentences = doc.sentences := by
  rw [h.eq]
  rfl

theorem marked (h : doc.SameButMentions d) : d.marked = doc.marked := by
  rw [h.eq]
  rfl

theorem gapFits_iff (h : doc.SameButMentions d) {gap : Nat} : d.GapFits gap ↔ doc.GapFits gap := by
  rw [GapFits, Document.tokens, h.sentences]
  rfl

theorem sameEntities (h : doc.SameButMentions d) : doc.SameEntities d := by
  rw [h.eq]
  exact ⟨rfl, rfl, rfl, rfl⟩

end SameButMentions

theorem sameButMentions_takeGold (doc : Document) (lex : Lexicon)
    (gold? : Option (List (List MentionSpan))) :
    doc.SameButMentions (doc.takeGold lex gold?).1 := by
  unfold takeGold
  split
  · exact .refl doc
  · dsimp only
    split
    · exact ⟨rfl⟩
    · rw [deriveAntecedents_eq]
      exact ⟨rfl⟩

theorem sameButMentions_registerAll (doc : Document) (entries : List (Mention × Nat)) :
    doc.SameButMentions (doc.registerAll entries).1 := by
  induction entries generalizing doc with
  | nil => exact .refl doc
  | cons entry rest ih =>
    rw [registerAll]
    split
    · exact .refl doc
    · have registered (place : Nat) (m : Mention) : doc.SameButMentions (doc.register place m) :=
        ⟨rfl⟩
      exact (registered _ _).trans (ih _)

theorem sameButMentions_fillMentions (doc : Document) (rows : List (List Mention)) :
    doc.SameButMentions (doc.fillMentions rows).1 := by
  have cleared : doc.SameButMentions { doc with predicted := doc.sentences.map fun _ => [] } := ⟨rfl⟩
  have filled := cleared.trans (sameButMentions_registerAll _ (rows.flatMap List.zipIdx))
  rw [fillMentions]
  split
  next filling =>
    rw [filling] at filled
    exact filled
  next filling =>
    rw [filling] at filled
    exact filled.trans ⟨rfl⟩

theorem sameButMentions_initializeMentions (doc : Document) (lex : Lexicon) (policy : TwinPolicy)
    (raw : RawMentions) :
    doc.SameButMentions (doc.initializeMentions lex policy raw).1 := by
  have taken := sameButMentions_takeGold doc lex raw.gold?
  rw [initializeMentions]
  split
  next taking =>
    rw [taking] at taken
    exact taken
  next d next taking =>
    rw [taking] at taken
    split
    · exact taken
    · have twinned (rows : List (List Mention)) :
          d.SameButMentions (d.findTwins policy rows).1 := by
        rw [findTwins]
        split
        · exact .refl d
        · exact ⟨rfl⟩
      generalize pairing : d.findTwins policy _ = twins
      have filled := (taken.trans (pairing ▸ twinned _)).trans
        (sameButMentions_fillMentions twins.1 twins.2)
      obtain ⟨marked, rows⟩ := twins
      dsimp only at filled ⊢
      split
      next filling =>
        rw [filling] at filled
        exact filled
      next filling =>
        rw [filling] at filled
        exact filled

theorem sameButMentions_markRelations (doc : Document) :
    doc.SameButMentions doc.reorderMentions.markRelations := by
  obtain ⟨mentions, marked⟩ := doc.reorderMentions.markRelations_eq
  rw [marked]
  exact ⟨rfl⟩

/-- The analyses come to an end exactly if the numbering of paragraphs does. -/
theorem analyse_eq (doc : Document) (lex : Lexicon) (settings : PreparationSettings) :
    doc.analyse lex settings =
      if doc.GapFits settings.paragraphGap then .ok (doc.analysed lex settings)
      else .error .overflow := by
  rw [analyse, setParagraphs_eq]
  simp only [(sameButMentions_markRelations doc).gapFits_iff]
  split <;> rfl

theorem analyse_eq_ok_iff {doc d : Document} {lex : Lexicon} {settings : PreparationSettings} :
    doc.analyse lex settings = .ok d ↔
      doc.GapFits settings.paragraphGap ∧ doc.analysed lex settings = d := by
  rw [analyse_eq]
  split <;> simp [*]

theorem sameButMentions_initializeClusters (doc : Document) :
    doc.SameButMentions doc.initializeClusters :=
  SameButMentions.trans (d := { doc with clusters := {} }) ⟨rfl⟩ (.foldl (fun _ _ => ⟨rfl⟩) _ _)

theorem sameButMentions_gatherGoldClusters (doc : Document) :
    doc.SameButMentions doc.gatherGoldClusters.1 := by
  rw [gatherGoldClusters]
  split
  · rw [extractGoldClusters]
    split
    · exact ⟨rfl⟩
    · split <;> exact ⟨rfl⟩
  · exact .refl doc

theorem sameButMentions_assignPlaces (doc : Document) : doc.SameButMentions doc.assignPlaces :=
  .foldl (fun _ _ => ⟨rfl⟩) doc _

/-- A preparation keeps the entity mentions and the quotations. -/
theorem sameEntities_prepare (doc : Document) (lex : Lexicon) (settings : PreparationSettings)
    (raw : RawMentions) : doc.SameEntities (doc.prepare lex settings raw).1 := by
  rw [prepare]
  split
  next => exact .refl doc
  next raw _ =>
    have taken := (sameButMentions_initializeMentions doc lex settings.twins raw).sameEntities
    split
    next taking =>
      rw [taking] at taken
      exact taken
    next d count taking =>
      rw [taking] at taken
      split
      next => exact taken
      next d' analysis =>
        obtain ⟨-, rfl⟩ := analyse_eq_ok_iff.mp analysis
        have analysed := taken.trans (undisturbed_analysed d lex settings).toSameEntities
        have final := analysed.trans (sameButMentions_gatherGoldClusters _).sameEntities
        split
        next gathering =>
          rw [gathering] at final
          exact final
        next gathering =>
          rw [gathering] at final
          exact final.trans (sameButMentions_assignPlaces _).sameEntities

end Document

end Discourse
