import Discourse.Proofs.Cluster.Gold
import Discourse.Proofs.Preparation.Analysis
import Discourse.Proofs.Preparation.Building
import Discourse.Source.Annotated
/-!
# How a preparation ends

A document that was accepted has parses that fit and no mentions yet, and its preparation ends in
one of few ways (`prepare_eq_error_iff`): the detection stops; or the head given for some span is
no token of its sentence; or the gap between paragraphs does not fit behind the tokens; or some gold
span names no cluster.  The first of these that applies, at the first place where it does, is
reported, and if none applies the preparation succeeds.  If no sentence without a parse has more
tags than tokens, no index is out of range (`prepare_accepted`).
-/

namespace Discourse

/-- Whether a span names a gold cluster. -/
def PlacedSpan.Clustered (entry : PlacedSpan) : Prop := entry.2.2.goldCluster? ≠ none

/-- Whether mentions are to be detected. -/
def PreparationSettings.detects (settings : PreparationSettings) (raw : RawMentions) : Bool :=
  settings.detect && raw.predicted.all List.isEmpty

namespace Document

/-- Why a preparation stops. -/
inductive PreparationStops (doc : Document) (settings : PreparationSettings) (raw : RawMentions) :
    Stop → Prop
  /-- The detection stops. -/
  | detection {stop : Stop} (detects : settings.detects raw = true)
    (stops : doc.DetectionStops stop) : PreparationStops doc settings raw stop
  /-- The detection does not stop, but the head of a span is outside its sentence, and this is the
  first such span. -/
  | head {id head : Nat} {entry : PlacedSpan}
    (detected : settings.detects raw = true → ∀ stop, ¬doc.DetectionStops stop)
    (first : FirstAt (fun entry => ¬entry.HeadInside) (doc.numberedSpans raw) id entry)
    (given : entry.2.2.head? = some head) :
    PreparationStops doc settings raw (.fault (.missingHeadLeaf id head))
  /-- Every head is in its sentence, but the gap does not fit behind the tokens. -/
  | gap (detected : settings.detects raw = true → ∀ stop, ¬doc.DetectionStops stop)
    (inside : ∀ entry ∈ doc.numberedSpans raw, entry.HeadInside)
    (wide : ¬doc.GapFits settings.paragraphGap) : PreparationStops doc settings raw .overflow
  /-- Every head is in its sentence and the gap fits, but a gold span names no cluster, and this is
  the first such span. -/
  | cluster {id : Nat} {entry : PlacedSpan}
    (detected : settings.detects raw = true → ∀ stop, ¬doc.DetectionStops stop)
    (inside : ∀ entry ∈ doc.numberedSpans raw, entry.HeadInside)
    (fits : doc.GapFits settings.paragraphGap)
    (first : FirstAt (fun entry => ¬entry.Clustered) (doc.goldSpans raw) id entry) :
    PreparationStops doc settings raw (.fault (.missingGoldCluster id))

variable {doc d : Document} (lex : Lexicon) {settings : PreparationSettings} {raw : RawMentions}

/-! ## Gold clusters -/

theorem gatherGold_of_first (found : Table Nat (KeySet MentionId)) {ids : List MentionId} {k : Nat}
    {id : MentionId} (first : FirstAt (fun id => doc.goldClusterOf? id = none) ids k id) :
    (doc.gatherGold found ids).2 = some id := by
  induction ids generalizing found k with
  | nil => cases first
  | cons id' rest ih =>
    rw [gatherGold]
    cases first with
    | here unclustered =>
      rw [goldClusterOf?] at unclustered
      rw [unclustered]
    | later clustered first =>
      obtain ⟨cluster, named⟩ := Option.ne_none_iff_exists'.mp clustered
      rw [goldClusterOf?] at named
      rw [named]
      exact ih _ first

theorem gatherGoldClusters_of_first {k : Nat} {id : MentionId}
    (first : FirstAt (fun id => doc.goldClusterOf? id = none) doc.goldRows.flatten k id) :
    doc.gatherGoldClusters.2 = .error (.missingGoldCluster id) := by
  rw [goldRows] at first
  rw [gatherGoldClusters, extractGoldClusters]
  cases rows : doc.gold? with
  | none =>
    rw [rows] at first
    cases first
  | some gold =>
    rw [rows, Option.getD_some] at first
    have stops := gatherGold_of_first {} first
    rw [Option.isSome_some, if_pos rfl]
    dsimp only
    generalize doc.gatherGold {} gold.flatten = gathered at stops ⊢
    obtain ⟨found, id?⟩ := gathered
    cases stops
    rfl

theorem exists_gatherGoldClusters
    (named : ∀ id ∈ doc.goldRows.flatten, doc.goldClusterOf? id ≠ none) :
    ∃ d, doc.gatherGoldClusters = (d, .ok ()) := by
  obtain ⟨found, gathered, -⟩ := extractGoldClusters_gathered fun id mem =>
    Option.ne_none_iff_exists'.mp (named id mem)
  rw [gatherGoldClusters]
  split
  · exact ⟨_, gathered⟩
  · exact ⟨_, rfl⟩

namespace TakenUp

variable {count : Nat} {gold built filled : List Mention}

/-- The first gold span that names no cluster has become the first gold mention without one. -/
theorem first_unclustered (h : TakenUp doc d raw count gold built filled) {id : Nat}
    {entry : PlacedSpan}
    (first : FirstAt (fun entry => ¬entry.Clustered) (doc.goldSpans raw) id entry) :
    FirstAt (fun id => d.goldClusterOf? id = none) d.goldRows.flatten id id := by
  have spans : FirstAt (fun o : Origin => ¬o.goldCluster? ≠ none)
      ((doc.goldSpans raw).map PlacedSpan.origin) id entry.origin :=
    FirstAt.map (f := PlacedSpan.origin) (r := fun o => ¬o.goldCluster? ≠ none) first
  rw [goldSpans, spansWithin, ← h.goldNumbered.origins] at spans
  obtain ⟨g, -, mentions⟩ := spans.of_map
  have number : g.id = 0 + id := h.goldNumbered.id_of_getElem? mentions.getElem?
  rw [Nat.zero_add] at number
  have ids : FirstAt (fun id => d.goldClusterOf? id = none) (gold.map Mention.id) id g.id := by
    refine FirstAt.map (mentions.congr fun g isGold => ?_)
    rw [h.goldClusterOf?_of_mem isGold]
    exact Classical.not_not
  rw [h.flatten_goldRows]
  rw [number] at ids
  exact ids

theorem clustered (h : TakenUp doc d raw count gold built filled)
    (all : ∀ entry ∈ doc.goldSpans raw, entry.Clustered) :
    ∀ id ∈ d.goldRows.flatten, d.goldClusterOf? id ≠ none := by
  intro id mem
  obtain ⟨g, isGold, rfl⟩ := (h.mem_goldRows_iff id).mp mem
  rw [h.goldClusterOf?_of_mem isGold]
  obtain ⟨entry, listed, within, origin⟩ := h.goldNumbered.exists_span isGold
  have same : g.goldCluster? = entry.2.2.goldCluster? := congrArg Origin.goldCluster? origin
  rw [same]
  exact all entry (List.mem_filter.mpr ⟨listed, within⟩)

end TakenUp

theorem goldClusterOf?_analysed (doc : Document) (lex : Lexicon) (settings : PreparationSettings) :
    (doc.analysed lex settings).goldRows = doc.goldRows ∧
      (doc.analysed lex settings).goldClusterOf? = doc.goldClusterOf? := by
  have same := undisturbed_analysed doc lex settings
  refine ⟨?_, funext fun id => ?_⟩
  · rw [goldRows, same.gold, goldRows]
  · rw [goldClusterOf?, same.goldMentions, goldClusterOf?]

/-! ## The stages in their order -/

theorem completeMentions_eq (doc : Document) (settings : PreparationSettings) (raw : RawMentions) :
    doc.completeMentions settings raw =
      if settings.detects raw then
        doc.detectMentions.map fun predicted => { raw with predicted }
      else .ok raw := rfl

/-- What the later stages start from: what was given, or else what was detected. -/
structure Completed (doc : Document) (raw raw' : RawMentions) : Prop where
  gold : raw'.gold? = raw.gold?
  /-- Heads that were not given are in order. -/
  predicted : raw'.predicted = raw.predicted ∨
    spansWithin doc.sentences raw.predicted = [] ∧
      ∀ entry ∈ spansWithin doc.sentences raw'.predicted, entry.HeadInside

theorem exists_completeMentions (fit : doc.ParsesFit)
    (detected : settings.detects raw = true → ∀ stop, ¬doc.DetectionStops stop) :
    ∃ raw', doc.completeMentions settings raw = .ok raw' ∧ doc.Completed raw raw' := by
  rw [completeMentions_eq]
  split
  next detects =>
    cases found : doc.detectMentions with
    | error stop =>
      exact absurd ((detectMentions_eq_error_iff fit).mp found) (detected detects stop)
    | ok rows =>
      refine ⟨_, rfl, rfl, .inr ⟨?_, ?_⟩⟩
      · have empty := List.all_eq_true.mp (Bool.and_eq_true_iff.mp detects).2
        refine List.eq_nil_iff_forall_not_mem.mpr fun entry mem => ?_
        obtain ⟨-, row, listed, mem⟩ := mem_spansOf_iff.mp (List.mem_of_mem_filter mem)
        have none := List.isEmpty_iff.mp (empty row (List.mem_of_getElem? listed))
        rw [none] at mem
        cases mem
      · rintro ⟨i, s, span⟩ mem head given
        obtain ⟨here, row, listed, mem⟩ := mem_spansOf_iff.mp (List.mem_of_mem_filter mem)
        obtain ⟨-, head', given', inside⟩ := fits_of_detectMentions fit found here listed span mem
        cases given.symm.trans given'
        exact inside
  next => exact ⟨raw, rfl, rfl, .inl rfl⟩

namespace Completed

variable {raw' : RawMentions}

theorem goldSpans (completed : doc.Completed raw raw') : doc.goldSpans raw' = doc.goldSpans raw := by
  rw [Document.goldSpans, completed.gold, Document.goldSpans]

theorem headsInside (completed : doc.Completed raw raw')
    (inside : ∀ entry ∈ doc.numberedSpans raw, entry.HeadInside) :
    ∀ entry ∈ doc.numberedSpans raw', entry.HeadInside := by
  rw [numberedSpans, completed.goldSpans]
  rcases completed.predicted with same | ⟨-, fits⟩
  · rw [same]
    exact inside
  · exact List.forall_mem_append.mpr ⟨(List.forall_mem_append.mp inside).1, fits⟩

theorem firstHead (completed : doc.Completed raw raw') {id : Nat} {entry : PlacedSpan}
    (first : FirstAt (fun entry => ¬entry.HeadInside) (doc.numberedSpans raw) id entry) :
    FirstAt (fun entry => ¬entry.HeadInside) (doc.numberedSpans raw') id entry := by
  rw [numberedSpans, completed.goldSpans]
  rcases completed.predicted with same | ⟨nothing, -⟩
  · rw [same]
    exact first
  · rw [numberedSpans, nothing, List.append_nil] at first
    exact first.append_left

end Completed

theorem prepare_of_detectionStops {stop : Stop} (fit : doc.ParsesFit)
    (detects : settings.detects raw = true) (stops : doc.DetectionStops stop) :
    (doc.prepare lex settings raw).2 = .error stop := by
  rw [prepare, completeMentions_eq, if_pos detects, (detectMentions_eq_error_iff fit).mpr stops]
  rfl

section Completion

variable {raw' : RawMentions} (completing : doc.completeMentions settings raw = .ok raw')
  (completed : doc.Completed raw raw')

include completing completed

theorem prepare_of_firstHead {id head : Nat} {entry : PlacedSpan}
    (first : FirstAt (fun entry => ¬entry.HeadInside) (doc.numberedSpans raw) id entry)
    (given : entry.2.2.head? = some head) :
    (doc.prepare lex settings raw).2 = .error (.fault (.missingHeadLeaf id head)) := by
  have stops := initializeMentions_of_first lex settings.twins (completed.firstHead first) given
  rw [prepare, completing]
  dsimp only
  generalize doc.initializeMentions lex settings.twins raw' = taken at stops ⊢
  obtain ⟨d, outcome⟩ := taken
  cases stops
  rfl

/-- Once all heads are in their sentences, mentions are taken up, and only the gap can be too wide
and gold clusters can be missing. -/
theorem prepare_of_headsInside (fresh : doc.Fresh) (fit : doc.ParsesFit)
    (inside : ∀ entry ∈ doc.numberedSpans raw, entry.HeadInside) :
    ∃ d count gold built filled, TakenUp doc d raw' count gold built filled ∧
      (doc.prepare lex settings raw).2 =
        if doc.GapFits settings.paragraphGap then
          match (d.analysed lex settings).gatherGoldClusters with
          | (_, .error fault) => .error (.fault fault)
          | (final, .ok ()) => .ok (final.assignPlaces.summary count)
        else .error .overflow := by
  obtain ⟨d, count, taken⟩ := exists_initializeMentions lex settings.twins fit
    (completed.headsInside inside)
  obtain ⟨gold, built, filled, taking⟩ := initializeMentions_cases fresh taken
  have same := sameButMentions_initializeMentions doc lex settings.twins raw'
  rw [taken] at same
  refine ⟨d, count, gold, built, filled, taking, ?_⟩
  rw [prepare, completing]
  dsimp only
  rw [taken]
  dsimp only
  rw [analyse_eq]
  simp only [same.gapFits_iff]
  by_cases fits : doc.GapFits settings.paragraphGap
  · rw [if_pos fits, if_pos fits]
    dsimp only
    obtain ⟨final, fault | ⟨⟩⟩ := (d.analysed lex settings).gatherGoldClusters
    · rfl
    · rfl
  · rw [if_neg fits, if_neg fits]

theorem prepare_of_wideGap (fresh : doc.Fresh) (fit : doc.ParsesFit)
    (inside : ∀ entry ∈ doc.numberedSpans raw, entry.HeadInside)
    (wide : ¬doc.GapFits settings.paragraphGap) :
    (doc.prepare lex settings raw).2 = .error .overflow := by
  obtain ⟨d, count, gold, built, filled, -, outcome⟩ :=
    prepare_of_headsInside lex completing completed fresh fit inside
  rw [outcome, if_neg wide]

theorem prepare_of_firstCluster (fresh : doc.Fresh) (fit : doc.ParsesFit)
    (inside : ∀ entry ∈ doc.numberedSpans raw, entry.HeadInside)
    (fits : doc.GapFits settings.paragraphGap) {id : Nat} {entry : PlacedSpan}
    (first : FirstAt (fun entry => ¬entry.Clustered) (doc.goldSpans raw) id entry) :
    (doc.prepare lex settings raw).2 = .error (.fault (.missingGoldCluster id)) := by
  obtain ⟨d, count, gold, built, filled, taken, outcome⟩ :=
    prepare_of_headsInside lex completing completed fresh fit inside
  rw [← completed.goldSpans] at first
  have unclustered := taken.first_unclustered first
  obtain ⟨rows, clusters⟩ := goldClusterOf?_analysed d lex settings
  rw [← rows, ← clusters] at unclustered
  have stops := gatherGoldClusters_of_first unclustered
  rw [outcome, if_pos fits]
  generalize (d.analysed lex settings).gatherGoldClusters = gathered at stops ⊢
  obtain ⟨final, ended⟩ := gathered
  cases stops
  rfl

theorem exists_prepare (fresh : doc.Fresh) (fit : doc.ParsesFit)
    (inside : ∀ entry ∈ doc.numberedSpans raw, entry.HeadInside)
    (fits : doc.GapFits settings.paragraphGap)
    (clustered : ∀ entry ∈ doc.goldSpans raw, entry.Clustered) :
    ∃ summary, (doc.prepare lex settings raw).2 = .ok summary := by
  obtain ⟨d, count, gold, built, filled, taken, outcome⟩ :=
    prepare_of_headsInside lex completing completed fresh fit inside
  rw [← completed.goldSpans] at clustered
  have named := taken.clustered clustered
  obtain ⟨rows, clusters⟩ := goldClusterOf?_analysed d lex settings
  rw [← rows, ← clusters] at named
  obtain ⟨final, gathered⟩ := exists_gatherGoldClusters named
  rw [outcome, if_pos fits, gathered]
  exact ⟨_, rfl⟩

end Completion

/-! ## Outcomes -/

/-- Either something stops the preparation, or there are heads and clusters for all that need
them and the gap fits. -/
theorem preparationStops_or (doc : Document) (settings : PreparationSettings) (raw : RawMentions) :
    (∃ stop, doc.PreparationStops settings raw stop) ∨
      (settings.detects raw = true → ∀ stop, ¬doc.DetectionStops stop) ∧
        (∀ entry ∈ doc.numberedSpans raw, entry.HeadInside) ∧
          doc.GapFits settings.paragraphGap ∧ ∀ entry ∈ doc.goldSpans raw, entry.Clustered := by
  by_cases detected : settings.detects raw = true → ∀ stop, ¬doc.DetectionStops stop
  · by_cases inside : ∀ entry ∈ doc.numberedSpans raw, entry.HeadInside
    · by_cases fits : doc.GapFits settings.paragraphGap
      · by_cases clustered : ∀ entry ∈ doc.goldSpans raw, entry.Clustered
        · exact .inr ⟨detected, inside, fits, clustered⟩
        · simp only [not_forall] at clustered
          obtain ⟨entry, mem, unclustered⟩ := clustered
          obtain ⟨id, entry, first⟩ := FirstAt.exists_of_mem
            (p := fun entry : PlacedSpan => ¬entry.Clustered) mem unclustered
          exact .inl ⟨_, .cluster detected inside fits first⟩
      · exact .inl ⟨_, .gap detected inside fits⟩
    · simp only [not_forall] at inside
      obtain ⟨entry, mem, outside⟩ := inside
      obtain ⟨id, entry, first⟩ := FirstAt.exists_of_mem
        (p := fun entry : PlacedSpan => ¬entry.HeadInside) mem outside
      obtain ⟨head, given, -⟩ := PlacedSpan.exists_head_of_not_headInside first.holds
      exact .inl ⟨_, .head detected first given⟩
  · simp only [not_forall, Classical.not_not] at detected
    obtain ⟨detects, stop, stops⟩ := detected
    exact .inl ⟨stop, .detection detects stops⟩

theorem prepare_of_preparationStops {stop : Stop} (fresh : doc.Fresh) (fit : doc.ParsesFit)
    (stops : doc.PreparationStops settings raw stop) :
    (doc.prepare lex settings raw).2 = .error stop := by
  cases stops with
  | detection detects stops => exact prepare_of_detectionStops lex fit detects stops
  | head detected first given =>
    obtain ⟨raw', completing, completed⟩ := exists_completeMentions fit detected
    exact prepare_of_firstHead lex completing completed first given
  | gap detected inside wide =>
    obtain ⟨raw', completing, completed⟩ := exists_completeMentions fit detected
    exact prepare_of_wideGap lex completing completed fresh fit inside wide
  | cluster detected inside fits first =>
    obtain ⟨raw', completing, completed⟩ := exists_completeMentions fit detected
    exact prepare_of_firstCluster lex completing completed fresh fit inside fits first

/-- A preparation stops for the first reason there is. -/
theorem prepare_eq_error_iff (fresh : doc.Fresh) (fit : doc.ParsesFit) {stop : Stop} :
    (doc.prepare lex settings raw).2 = .error stop ↔ doc.PreparationStops settings raw stop := by
  constructor
  · intro stopped
    rcases preparationStops_or doc settings raw with
      ⟨stop', stops⟩ | ⟨detected, inside, fits, clustered⟩
    · cases stopped.symm.trans (prepare_of_preparationStops lex fresh fit stops)
      exact stops
    · obtain ⟨raw', completing, completed⟩ := exists_completeMentions fit detected
      obtain ⟨summary, finished⟩ :=
        exists_prepare lex completing completed fresh fit inside fits clustered
      cases stopped.symm.trans finished
  · exact prepare_of_preparationStops lex fresh fit

/-- What has to be in order in the data for a preparation to succeed. -/
structure Sound (doc : Document) (settings : PreparationSettings) (raw : RawMentions) : Prop where
  /-- Where mentions are detected, chunk tags that stand in for a parse are legal. -/
  tags : settings.detects raw = true →
    ∀ s ∈ doc.sentences, s.parse? = none → LegalTags s.chunkTags
  /-- Every head that is given for a span within its sentence is in the sentence. -/
  heads : ∀ entry ∈ doc.numberedSpans raw, entry.HeadInside
  /-- Every gold span within its sentence names a cluster. -/
  clusters : ∀ entry ∈ doc.goldSpans raw, entry.Clustered

/-- The sentences without a parse have no more chunk tags than tokens. -/
def TagsFit (doc : Document) : Prop :=
  ∀ s ∈ doc.sentences, s.parse? = none → s.chunkTags.length ≤ s.length

theorem TagsFit.not_overruns (fit : doc.TagsFit) {s : Sentence} (mem : s ∈ doc.sentences) :
    ¬s.Overruns := by
  rintro ⟨unparsed, -, i, beyond, noun⟩
  have few := fit s mem unparsed
  obtain ⟨tag, there, -⟩ := Option.bind_eq_some_iff.mp noun
  obtain ⟨text, there, -⟩ := Option.bind_eq_some_iff.mp there
  have tagged := (List.getElem?_eq_some_iff.mp there).1
  omega

theorem TagsFit.not_preparationStops_outOfRange (fit : doc.TagsFit) :
    ¬doc.PreparationStops settings raw .outOfRange := by
  rintro (⟨-, stops⟩ | _ | _ | _)
  cases stops with
  | overrun first overruns => exact fit.not_overruns first.mem overruns

theorem TagsFit.not_detectionStops (fit : doc.TagsFit)
    (legal : ∀ s ∈ doc.sentences, s.parse? = none → LegalTags s.chunkTags) (stop : Stop) :
    ¬doc.DetectionStops stop := by
  rintro (⟨first, unparsed, illegal⟩ | ⟨first, overruns⟩)
  · exact illegal.not_legalTags (legal _ first.mem unparsed)
  · exact fit.not_overruns first.mem overruns

theorem TagsFit.sound_and_gapFits_iff (fit : doc.TagsFit) :
    doc.Sound settings raw ∧ doc.GapFits settings.paragraphGap ↔
      ∀ stop, ¬doc.PreparationStops settings raw stop := by
  constructor
  · rintro ⟨⟨tags, heads, clusters⟩, fits⟩ stop stops
    cases stops with
    | detection detects stops => exact fit.not_detectionStops (tags detects) stop stops
    | head detected first given => exact first.holds (heads _ first.mem)
    | gap detected inside wide => exact wide fits
    | cluster detected inside fits first => exact first.holds (clusters _ first.mem)
  · intro never
    rcases preparationStops_or doc settings raw with
      ⟨stop, stops⟩ | ⟨detected, inside, fits, clustered⟩
    · exact absurd stops (never stop)
    · refine ⟨⟨fun detects s mem unparsed => ?_, inside, clustered⟩, fits⟩
      by_contra illegal
      obtain ⟨n, s, first⟩ := FirstAt.exists_of_mem
        (p := fun s : Sentence => s.Mistagged ∨ s.Overruns) mem (.inl ⟨unparsed, illegal⟩)
      rcases first.holds with ⟨unparsed, illegal⟩ | overruns
      · obtain ⟨i, tag, illegal⟩ := exists_firstIllegal illegal
        exact detected detects _ (.mistagged first unparsed illegal)
      · exact fit.not_overruns first.mem overruns

end Document

/-! ## Accepted documents -/

theorem AnnotatedSentence.leafCount_of_readParse {s : AnnotatedSentence} {number : Nat}
    {tree : ParseTree} (read : s.readParse number = .ok (some tree)) :
    tree.leafCount = s.tokens.length := by
  rw [readParse] at read
  split at read
  · cases read
  · split at read
    · cases read
    · split at read
      next agree =>
        cases read
        exact agree
      · cases read

namespace AnnotatedText

variable {text : AnnotatedText} {doc : Document} {raw : RawMentions}

theorem exists_of_build (built : text.build = .ok (doc, raw)) :
    ∃ sentences entities quotes,
      (text.sentences.zipIdx.mapM fun (s, number) => s.build number) = .ok sentences ∧
        doc = { Document.ofSentences text.id sentences with
          marked := text.marked, fromColumns := text.fromColumns, entities, quotes } := by
  obtain ⟨sentences, read, built⟩ := bind_eq_ok_iff.mp built
  obtain ⟨entities, -, built⟩ := bind_eq_ok_iff.mp built
  obtain ⟨quotes, -, built⟩ := bind_eq_ok_iff.mp built
  cases built
  exact ⟨sentences, entities, quotes, read, rfl⟩

theorem fresh_of_build (built : text.build = .ok (doc, raw)) : doc.Fresh := by
  obtain ⟨sentences, entities, quotes, -, rfl⟩ := exists_of_build built
  exact ⟨rfl, rfl, rfl, rfl⟩

theorem parsesFit_of_build (built : text.build = .ok (doc, raw)) : doc.ParsesFit := by
  obtain ⟨sentences, entities, quotes, read, rfl⟩ := exists_of_build built
  intro s mem
  obtain ⟨⟨source, number⟩, -, built⟩ := exists_mem_of_mapM_eq_ok read mem
  obtain ⟨parse?, read, rfl⟩ := map_eq_ok_iff.mp built
  rintro tree rfl
  exact AnnotatedSentence.leafCount_of_readParse read

/-- The preparation of an accepted document in which chunk tags do not go on beyond the tokens
never meets an index out of range.  It succeeds if all that is needed is in order and the gap fits
behind the tokens, and otherwise it stops for the first reason there is. -/
theorem prepare_accepted (built : text.build = .ok (doc, raw)) (fit : doc.TagsFit) (lex : Lexicon)
    (settings : PreparationSettings) :
    (doc.prepare lex settings raw).2 ≠ .error .outOfRange ∧
      ((∃ summary, (doc.prepare lex settings raw).2 = .ok summary) ↔
        doc.Sound settings raw ∧ doc.GapFits settings.paragraphGap) ∧
      ∀ stop, (doc.prepare lex settings raw).2 = .error stop ↔
        doc.PreparationStops settings raw stop := by
  have stops (stop : Stop) : (doc.prepare lex settings raw).2 = .error stop ↔
      doc.PreparationStops settings raw stop :=
    Document.prepare_eq_error_iff lex (fresh_of_build built) (parsesFit_of_build built)
  refine ⟨mt (stops .outOfRange).mp fit.not_preparationStops_outOfRange, ?_, stops⟩
  rw [fit.sound_and_gapFits_iff]
  constructor
  · rintro ⟨summary, finished⟩ stop stopped
    cases finished.symm.trans ((stops stop).mpr stopped)
  · intro never
    cases outcome : (doc.prepare lex settings raw).2 with
    | ok summary => exact ⟨summary, rfl⟩
    | error stop => exact absurd ((stops stop).mp outcome) (never stop)

/-- A gold span with its cluster, in a sentence with offsets and a chunk tag for each token. -/
theorem prepare_accepted_dog :
    let a := { Token.ofWord "a" "DT" with beginChar? := some 0, endChar? := some 1 }
    let dog := { Token.ofWord "dog" "NN" with beginChar? := some 2, endChar? := some 5 }
    let span : MentionSpan := { start := 0, stop := 2, head? := some 1, goldCluster? := some 7 }
    let chunkTags := ["B-NP", "I-NP"]
    let text : AnnotatedText :=
      { id := "", sentences := [{ tokens := [a, dog], chunkTags, gold? := some [span] }] }
    ∃ doc raw, text.build = .ok (doc, raw) ∧ doc.TagsFit ∧
      ∀ lex settings, settings.paragraphGap ≤ 100 →
        ∃ summary, (doc.prepare lex settings raw).2 = .ok summary := by
  intro a dog span chunkTags text
  let doc := Document.ofSentences "" [{ tokens := [a, dog], chunkTags }]
  have fit : doc.TagsFit := by
    intro s mem _
    obtain rfl := List.mem_singleton.mp mem
    exact Nat.le_refl 2
  refine ⟨_, _, rfl, fit, fun lex settings narrow => ?_⟩
  have built : text.build = .ok _ := rfl
  have fits : doc.GapFits 100 := by decide
  refine (prepare_accepted built fit lex settings).2.1.mpr
    ⟨⟨fun _ s mem _ => ?_, ?_, ?_⟩, fits.of_le narrow⟩
  · obtain rfl := List.mem_singleton.mp mem
    exact exists_decodeChunks_iff.mp ⟨_, rfl⟩
  · intro entry mem head given
    obtain rfl := List.mem_singleton.mp mem
    cases given
    exact Nat.lt_succ_self 1
  · intro entry mem
    obtain rfl := List.mem_singleton.mp mem
    exact Option.some_ne_none 7

/-- With the widest gap of all there is nothing wrong with two words and no mention, and yet they
cannot be prepared. -/
theorem prepare_widest_gap :
    let joe := { Token.ofWord "Joe" "NNP" with beginChar? := some 0, endChar? := some 3 }
    let left := { Token.ofWord "left" "VBD" with beginChar? := some 4, endChar? := some 8 }
    let text : AnnotatedText := { id := "", sentences := [{ tokens := [joe, left] }] }
    let settings : PreparationSettings := { paragraphGap := wordLimit - 1 }
    ∃ doc raw, text.build = .ok (doc, raw) ∧ doc.TagsFit ∧ doc.Sound settings raw ∧
      ∀ lex, (doc.prepare lex settings raw).2 = .error .overflow := by
  intro joe left text settings
  let doc := Document.ofSentences "" [{ tokens := [joe, left] }]
  have fit : doc.TagsFit := by
    intro s mem _
    obtain rfl := List.mem_singleton.mp mem
    exact Nat.zero_le 2
  have wide : ¬doc.GapFits settings.paragraphGap := by decide
  have tags : settings.detects ⟨[[]], none⟩ = true → ∀ s ∈ doc.sentences, s.parse? = none →
      LegalTags s.chunkTags := fun _ s mem _ => by
    obtain rfl := List.mem_singleton.mp mem
    exact exists_decodeChunks_iff.mp ⟨_, rfl⟩
  have heads : ∀ entry ∈ doc.numberedSpans ⟨[[]], none⟩, entry.HeadInside :=
    fun _ mem => nomatch mem
  have clusters : ∀ entry ∈ doc.goldSpans ⟨[[]], none⟩, entry.Clustered :=
    fun _ mem => nomatch mem
  have built : text.build = .ok (doc, ⟨[[]], none⟩) := rfl
  refine ⟨doc, _, built, fit, ⟨tags, heads, clusters⟩, fun lex => ?_⟩
  exact Document.prepare_of_preparationStops lex (fresh_of_build built) (parsesFit_of_build built)
    (.gap (fun detects => fit.not_detectionStops (tags detects)) heads wide)

end AnnotatedText

end Discourse
