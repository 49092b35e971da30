import Discourse.Proofs.Cluster.Run
import Discourse.Proofs.Preparation.Unseen
/-!
# What lasts of a mention

Once a mention is taken up, the analyses write to it where it stands in the discourse, to what it is
related, its cluster and its place.  The rest of it lasts (`Mention.core`): its id, its span and head,
its text and kind.  So does its registration at its head token, and which mentions are listed
(`exists_taken_of_prepare`).

Every stage changes mentions one at a time, so that it is enough to look at what is written to one
(`KeepsMentions.modifyMention`) and to go along the row of changes (`KeepsMentions.foldl`).
-/

namespace Discourse

/-- The mention as it was taken up. -/
def Mention.core (m : Mention) : Mention :=
  { m with
    paragraph? := none, utterance := 0, cluster? := none, place? := none
    appositions := {}, predicateNominatives := {}, relativePronouns := {}
    members := {}, lists := {} }

namespace Document

/-- What `g` says of the mentions is the same in two documents. -/
def KeepsMentions {β : Type} (g : Mention → β) (doc d : Document) : Prop :=
  ∀ id, (d.mention? id).map g = (doc.mention? id).map g

namespace KeepsMentions

variable {β : Type} {g : Mention → β} {doc d d' : Document}

theorem of_eq (same : d.mentions = doc.mentions) : KeepsMentions g doc d := by
  intro id
  rw [mention?, same, mention?]

theorem trans (h : KeepsMentions g doc d) (h' : KeepsMentions g d d') : KeepsMentions g doc d' :=
  fun id => (h' id).trans (h id)

theorem modifyMention (doc : Document) (id : MentionId) (f : Mention → Mention)
    (keeps : ∀ m, g (f m) = g m) : KeepsMentions g doc (doc.modifyMention id f) := by
  intro id'
  rw [mention?, Document.modifyMention, Table.find?_modify]
  split
  · rw [Option.map_map]
    exact congrArg (Option.map · _) (funext keeps)
  · rfl

/-- What each change keeps, a row of changes keeps. -/
theorem foldl {α : Type} {f : Document → α → Document}
    (step : ∀ d x, KeepsMentions g d (f d x)) (doc : Document) (xs : List α) :
    KeepsMentions g doc (xs.foldl f doc) :=
  List.foldlRecOn (motive := KeepsMentions g doc) xs f (.of_eq rfl)
    fun d same x _ => same.trans (step d x)

theorem markHeads (doc : Document) (f : Option Token → Mention → Mention)
    (keeps : ∀ head? m, g (f head? m) = g m) : KeepsMentions g doc (doc.markHeads f) := by
  refine .foldl (fun d m => ?_) doc doc.orderedMentions
  exact .modifyMention d m.id _ (keeps _)

/-- The mention of one document for that of the other. -/
theorem exists_mention? (h : KeepsMentions g doc d) {id : MentionId} {m : Mention}
    (found : d.mention? id = some m) : ∃ m', doc.mention? id = some m' ∧ g m' = g m := by
  have same := h id
  rw [found, Option.map_some] at same
  exact Option.map_eq_some_iff.mp same.symm

theorem symm (h : KeepsMentions g doc d) : KeepsMentions g d doc := fun id => (h id).symm

theorem isSome_eq (h : KeepsMentions g doc d) (id : MentionId) :
    (d.mention? id).isSome = (doc.mention? id).isSome := by
  have same := congrArg Option.isSome (h id)
  rw [Option.isSome_map, Option.isSome_map] at same
  exact same

end KeepsMentions

/-! ## The stages of the analysis -/

theorem keepsCore_markSentence (doc : Document) (ids : List MentionId) (sentence : Nat) :
    KeepsMentions Mention.core doc (doc.markSentence ids sentence) := by
  have lists : KeepsMentions Mention.core doc (doc.markLists ids) := by
    refine .foldl (fun d (member, list) => ?_) doc _
    have grown : KeepsMentions Mention.core d (d.modifyMention list fun m =>
        { m with members := m.members.insert member }) := .modifyMention d list _ fun _ => rfl
    exact grown.trans (.modifyMention _ member _ fun _ => rfl)
  have apposed (d : Document) (pairs : List (Nat × Nat)) :
      KeepsMentions Mention.core d (d.markAppositions ids pairs) :=
    .foldl (fun d (_, b) => .modifyMention d b _ fun _ => rfl) d _
  have predicated (d : Document) (pairs : List (Nat × Nat)) :
      KeepsMentions Mention.core d (d.markPredicates ids pairs) :=
    .foldl (fun d (_, b) => .modifyMention d b _ fun _ => rfl) d _
  rw [markSentence]
  split
  · exact lists
  · split
    · exact lists
    · exact (lists.trans (apposed _ _)).trans (predicated _ _)

theorem keepsCore_laidOut (doc : Document) (settings : PreparationSettings) :
    KeepsMentions Mention.core doc (doc.laidOut settings) := by
  have sorted : KeepsMentions Mention.core doc doc.reorderMentions := .of_eq rfl
  have related (d : Document) : KeepsMentions Mention.core d d.markRelations :=
    .foldl (fun d (ids, sentence) => d.keepsCore_markSentence ids sentence) d _
  have cut (d : Document) : KeepsMentions Mention.core d (d.numbered settings.paragraphGap) := by
    have numbered : KeepsMentions Mention.core d
        (d.withTokens (marksAfter settings.paragraphGap 0 none d.tokens).1) := .of_eq rfl
    have marked := numbered.trans (.markHeads _
      (fun head? m => { m with paragraph? := head?.bind Token.paragraph? }) fun _ _ => rfl)
    exact marked.trans (.of_eq rfl)
  exact (sorted.trans (related _)).trans (cut _)

theorem keepsCore_markDiscourse (doc : Document) :
    KeepsMentions Mention.core doc doc.markDiscourse := by
  have uttered : KeepsMentions Mention.core doc doc.uttered :=
    .of_eq doc.sameGround_uttered.2.1
  have marked := uttered.trans (.markHeads _
    (fun head? m => { m with utterance := (head?.map Token.utterance).getD 0 }) fun _ _ => rfl)
  exact marked.trans (.of_eq rfl)

theorem headed_markDiscourse (doc : Document) : doc.markDiscourse.headed = doc.headed := by
  obtain ⟨mentions, maxUtterance, speakersGiven, marked⟩ := doc.markDiscourse_eq
  rw [marked]

/-- Once mentions are marked with their utterances nothing is written to them any more. -/
theorem processDiscourse_eq (doc : Document) (lex : Lexicon) :
    ∃ sentences speakers speakerInfo speakerPairs, doc.processDiscourse lex =
      { doc.markDiscourse with sentences, speakers, speakerInfo, speakerPairs } := by
  have described (d : Document) : ∃ speakers speakerInfo,
      d.describeSpeakers.reconcileSpeakers = { d with speakers, speakerInfo } := ⟨_, _, rfl⟩
  have marked (d : Document) : ∃ sentences, d.markSpeakers = { d with sentences } := ⟨_, rfl⟩
  rw [processDiscourse]
  generalize doc.markDiscourse = x
  obtain ⟨found, search⟩ := x.findSpeakers_eq lex
  obtain ⟨speakers, speakerInfo, renamed⟩ := described (x.findSpeakers lex)
  rw [search] at renamed
  obtain ⟨sentences, said⟩ := marked (x.findSpeakers lex).describeSpeakers.reconcileSpeakers
  rw [search, renamed] at said
  obtain ⟨pairs, last⟩ := findSpeakerPairs_eq
    (x.findSpeakers lex).describeSpeakers.reconcileSpeakers.markSpeakers
  rw [last, search, renamed, said]
  exact ⟨sentences, speakers, speakerInfo, pairs, rfl⟩

/-- The clusters are written to the mentions and nothing else. -/
theorem keepsMentions_initializeClusters {β : Type} {g : Mention → β} (doc : Document)
    (keeps : ∀ m cluster, g (m.inCluster cluster) = g m) :
    KeepsMentions g doc doc.initializeClusters := by
  have cleared : KeepsMentions g doc { doc with clusters := {} } := .of_eq rfl
  have started (d : Document) (id : MentionId) : KeepsMentions g d (d.startCluster id) :=
    KeepsMentions.trans (d := { d with clusters := d.clusters.insert id (KeySet.ofList [id]) })
      (.of_eq rfl) (.modifyMention _ id _ fun m => keeps m id)
  exact cleared.trans (.foldl started _ _)

/-! ## The whole preparation -/

/-- Two documents with the same mentions, but for what the analyses write to them, of which the same
are listed, and the same headed at every token. -/
structure SameRegister (doc d : Document) : Prop where
  cores : KeepsMentions Mention.core doc d
  listed : d.predicted.flatten.Perm doc.predicted.flatten
  headed : d.headed = doc.headed

theorem SameRegister.trans {doc d d' : Document} (h : doc.SameRegister d) (h' : d.SameRegister d') :
    doc.SameRegister d' where
  cores := h.cores.trans h'.cores
  listed := h'.listed.trans h.listed
  headed := h'.headed.trans h.headed

/-- Where exactly the mentions that have an entry are listed, this lasts. -/
theorem SameRegister.listed_iff {doc d : Document} (h : doc.SameRegister d)
    (listed : doc.predicted.flatten.Perm doc.mentions.keys) (id : MentionId) :
    id ∈ d.predicted.flatten ↔ id ∈ d.mentions.keys := by
  rw [h.listed.mem_iff, listed.mem_iff, Table.mem_keys_iff, Table.mem_keys_iff]
  exact (Bool.eq_iff_iff.mp (h.cores.isSome_eq id)).symm

theorem flatten_map_perm {α : Type} {f : List α → List α} (perm : ∀ row, (f row).Perm row)
    (rows : List (List α)) : (rows.map f).flatten.Perm rows.flatten := by
  induction rows with
  | nil => exact .refl _
  | cons row rest ih =>
    rw [List.map_cons, List.flatten_cons, List.flatten_cons]
    exact (perm row).append ih

theorem sameRegister_laidOut (doc : Document) (settings : PreparationSettings) :
    doc.SameRegister (doc.laidOut settings) := by
  obtain ⟨related, marked⟩ := doc.reorderMentions.markRelations_eq
  obtain ⟨mentions, paragraphs, cut⟩ :=
    doc.reorderMentions.markRelations.numbered_eq settings.paragraphGap
  have sorted : doc.reorderMentions.predicted.flatten.Perm doc.predicted.flatten :=
    flatten_map_perm (fun row => row.mergeSort_perm doc.inOrder) doc.predicted
  refine ⟨doc.keepsCore_laidOut settings, ?_, ?_⟩
  · rw [laidOut, cut, marked]
    exact sorted
  · rw [laidOut, cut, marked]
    rfl

theorem sameRegister_processDiscourse (doc : Document) (lex : Lexicon) :
    doc.SameRegister (doc.processDiscourse lex) := by
  have marked : doc.SameRegister doc.markDiscourse :=
    ⟨doc.keepsCore_markDiscourse, .of_eq (congrArg List.flatten doc.markDiscourse_cases.1.predicted),
      doc.headed_markDiscourse⟩
  obtain ⟨sentences, speakers, speakerInfo, speakerPairs, analysed⟩ := doc.processDiscourse_eq lex
  rw [analysed]
  generalize doc.markDiscourse = x at marked
  exact marked.trans ⟨.of_eq rfl, .refl _, rfl⟩

theorem sameRegister_initializeClusters (doc : Document) :
    doc.SameRegister doc.initializeClusters := by
  refine ⟨doc.keepsMentions_initializeClusters fun _ _ => rfl, ?_, ?_⟩
  · rw [initializeClusters_eq]
  · rw [initializeClusters_eq]

theorem gatherGoldClusters_eq (doc : Document) :
    ∃ goldClusters, doc.gatherGoldClusters.1 = { doc with goldClusters } := by
  rw [gatherGoldClusters]
  split
  · rw [extractGoldClusters]
    split
    · exact ⟨_, rfl⟩
    · split <;> exact ⟨_, rfl⟩
  · exact ⟨_, rfl⟩

theorem sameRegister_gatherGoldClusters (doc : Document) :
    doc.SameRegister doc.gatherGoldClusters.1 := by
  obtain ⟨goldClusters, gathered⟩ := doc.gatherGoldClusters_eq
  rw [gathered]
  exact ⟨.of_eq rfl, .refl _, rfl⟩

theorem assignPlaces_eq (doc : Document) :
    ∃ mentions, doc.assignPlaces = { doc with mentions } :=
  foldl_eq_of_mentions (fun _ _ => ⟨_, rfl⟩) doc _

/-- The places are written to the mentions and nothing else. -/
theorem keepsMentions_assignPlaces {β : Type} {g : Mention → β} (doc : Document)
    (keeps : ∀ m place?, g { m with place? } = g m) : KeepsMentions g doc doc.assignPlaces := by
  refine .foldl (fun d (id, place) => ?_) doc _
  exact .modifyMention d id _ fun m => keeps m (some place)

theorem sameRegister_assignPlaces (doc : Document) : doc.SameRegister doc.assignPlaces := by
  obtain ⟨mentions, placed⟩ := doc.assignPlaces_eq
  refine ⟨doc.keepsMentions_assignPlaces fun _ _ => rfl, ?_, ?_⟩
  · rw [placed]
  · rw [placed]

variable {doc d : Document} {lex : Lexicon} {settings : PreparationSettings} {raw : RawMentions}

/-- A preparation that succeeds takes up mentions, analyses the document, gathers the gold clusters
and gives out places. -/
theorem exists_taken_of_prepare {counts : PreparationSummary}
    (ok : doc.prepare lex settings raw = (d, .ok counts)) :
    ∃ given taken count, doc.completeMentions settings raw = .ok given ∧
      doc.initializeMentions lex settings.twins given = (taken, .ok count) ∧
      d = (taken.analysed lex settings).gatherGoldClusters.1.assignPlaces := by
  rw [prepare] at ok
  split at ok
  next => cases ok
  next given completed =>
    split at ok
    next => cases ok
    next taken count taking =>
      split at ok
      next => cases ok
      next analysis =>
        obtain ⟨-, rfl⟩ := analyse_eq_ok_iff.mp analysis
        split at ok
        next => cases ok
        next gathering =>
          cases ok
          exact ⟨given, taken, count, completed, taking, by rw [gathering]⟩

/-- Without gold mentions nothing but a gap that is too wide can stop a preparation once the mentions
are taken up. -/
theorem exists_prepare_of_taken {given : RawMentions} {taken : Document} {count : Nat}
    (completed : doc.completeMentions settings raw = .ok given)
    (taking : doc.initializeMentions lex settings.twins given = (taken, .ok count))
    (fits : doc.GapFits settings.paragraphGap) (noGold : taken.gold? = none) :
    ∃ counts, doc.prepare lex settings raw =
      ((taken.analysed lex settings).gatherGoldClusters.1.assignPlaces, .ok counts) := by
  have same := sameButMentions_initializeMentions doc lex settings.twins given
  rw [taking] at same
  have analysis : taken.analyse lex settings = .ok (taken.analysed lex settings) :=
    analyse_eq_ok_iff.mpr ⟨same.gapFits_iff.mpr fits, rfl⟩
  have noGold := (undisturbed_analysed taken lex settings).gold.trans noGold
  have gathered : (taken.analysed lex settings).gatherGoldClusters =
      (taken.analysed lex settings, .ok ()) := by
    rw [gatherGoldClusters, noGold]
    rfl
  rw [prepare, completed]
  dsimp only
  rw [taking]
  dsimp only
  rw [analysis]
  dsimp only
  rw [gathered]
  dsimp only
  exact ⟨_, rfl⟩

/-- What the analyses and all that follows them leave of the mentions. -/
theorem sameRegister_analysed (doc : Document) (lex : Lexicon) (settings : PreparationSettings) :
    doc.SameRegister (doc.analysed lex settings).gatherGoldClusters.1.assignPlaces :=
  ((((doc.sameRegister_laidOut settings).trans (sameRegister_processDiscourse _ lex)).trans
    (sameRegister_initializeClusters _)).trans (sameRegister_gatherGoldClusters _)).trans
      (sameRegister_assignPlaces _)

end Document

end Discourse
