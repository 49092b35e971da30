import Discourse.Proofs.Dialogue.Vouching
import Discourse.Proofs.Mention.Identity
import Discourse.Proofs.Preparation.Lasting
import Discourse.Proofs.Preparation.Outcome
/-!
# Mentions and their speakers

What the speaker pairs of a prepared article rest on.  The steps behind the analysis keep its pairs,
its heads, its words and the utterances of its mentions (`Analysed`), so that the subject which
narration names for a mention can be looked up in the prepared document itself
(`Analysed.mem_speakerPairs_iff`).

A subject that heads a mention is handed on as the id of that mention, and a name that a mention
bears is replaced by its id: then narration vouches for the pair (`Vouched`).  A subject that heads
nothing is handed on as its word, and a word of digits looks like an id; if a mention has that id, it
is taken for the speaker (`Misread`).  There is no third way, and every misread number makes a pair
(`speakerPairs_vouched_iff`).  This holds of every text that is read without marks
(`untold_of_build`).
-/

namespace Discourse

/-- The mention as it was taken up, with its utterance. -/
def Mention.heard (m : Mention) : Mention := { m.core with utterance := m.utterance }

/-- A stretch is outside utterance 0. -/
theorem utterance_ne_zero_of_mem_stretchesFrom {last : Position} {since? : Option (Nat × Position)}
    (outside : ∀ since ∈ since?, since.1 ≠ 0) {row : List (Token × Position)} {st : Stretch}
    (mem : st ∈ stretchesFrom last since? row) : st.utterance ≠ 0 := by
  induction row generalizing since? with
  | nil =>
    cases since? with
    | none => cases mem
    | some since =>
      obtain rfl := List.mem_singleton.mp mem
      exact outside since rfl
  | cons entry rest ih =>
    obtain ⟨t, position⟩ := entry
    have none : ∀ since ∈ (Option.none : Option (Nat × Position)), since.1 ≠ 0 := by
      intro since mem
      cases mem
    cases since? with
    | none =>
      rw [stretchesFrom] at mem
      split at mem
      next => exact ih none mem
      next spoken =>
        refine ih (fun since same => ?_) mem
        cases same
        exact spoken
    | some since =>
      rw [stretchesFrom] at mem
      split at mem
      next =>
        rcases List.mem_cons.mp mem with rfl | mem
        · exact outside since rfl
        · exact ih none mem
      next => exact ih outside mem

/-- Of a text that is read without marks nothing says who speaks. -/
theorem AnnotatedText.untold_of_build {text : AnnotatedText} {doc : Document} {raw : RawMentions}
    (built : text.build = .ok (doc, raw)) (unmarked : text.marked = false) : doc.Untold := by
  obtain ⟨sentences, entities, quotes, -, rfl⟩ := exists_of_build built
  exact ⟨unmarked, rfl, rfl, rfl⟩

namespace Document

variable {doc d : Document} {lex : Lexicon} {settings : PreparationSettings} {raw : RawMentions}
  {counts : PreparationSummary}

theorem KeepsMentions.map_values {g : Mention → Mention} (h : KeepsMentions g doc d) :
    d.mentions.values.map g = doc.mentions.values.map g := by
  have values (d : Document) : d.mentions.values.map g = (d.mentions.mapValues g).values := by
    rw [Table.values, Table.values, Table.mapValues, Table.mapEntries, List.map_map, List.map_map]
    rfl
  have tables : d.mentions.mapValues g = doc.mentions.mapValues g := by
    refine Table.ext_find? fun id => ?_
    rw [Table.mapValues, Table.find?_mapEntries, Table.mapValues, Table.find?_mapEntries]
    exact h id
  rw [values, tables, values]

/-- Mentions keep being found by their ids where what is written to them is not the id. -/
theorem KeepsMentions.mentionsById {g : Mention → Mention} (h : KeepsMentions g doc d)
    (keeps : ∀ m, (g m).id = m.id) (byId : doc.MentionsById) : d.MentionsById := by
  intro id m found
  obtain ⟨m', before, same⟩ := h.exists_mention? found
  have same : m'.id = m.id := by rw [← keeps m', same, keeps m]
  rw [← same]
  exact byId id m' before

theorem MentionsById.mem_values_iff (byId : doc.MentionsById) (m : Mention) (id : MentionId) :
    m ∈ doc.mentions.values ∧ m.id = id ↔ doc.mention? id = some m := by
  constructor
  · rintro ⟨listed, rfl⟩
    obtain ⟨⟨id, m⟩, entry, rfl⟩ := List.mem_map.mp listed
    have found := (Table.mem_entries_iff _ _ _).mp entry
    rw [byId id m found]
    exact found
  · intro found
    exact ⟨List.mem_map.mpr ⟨(id, m), (Table.mem_entries_iff _ _ _).mpr found, rfl⟩, byId id m found⟩

namespace Untold

theorem of_sameButMentions (h : doc.Untold) (same : doc.SameButMentions d) : d.Untold := by
  rw [same.eq]
  exact ⟨h.marked, h.speakers, h.speakerInfo, h.speakerPairs⟩

theorem laidOut (h : doc.Untold) (settings : PreparationSettings) :
    (doc.laidOut settings).Untold := by
  have related := h.of_sameButMentions doc.sameButMentions_markRelations
  obtain ⟨mentions, paragraphs, cut⟩ :=
    doc.reorderMentions.markRelations.numbered_eq settings.paragraphGap
  rw [Document.laidOut, cut]
  exact ⟨related.marked, related.speakers, related.speakerInfo, related.speakerPairs⟩

end Untold

/-! ## From the analysis to the prepared document -/

/-- The analysis writes speakers at the tokens and reads none of them. -/
theorem readsAlike_processDiscourse (doc : Document) (lex : Lexicon) :
    doc.markDiscourse.ReadsAlike (doc.processDiscourse lex) := by
  obtain ⟨sentences, speakers, speakerInfo, speakerPairs, analysed⟩ := doc.processDiscourse_eq lex
  refine ⟨by rw [analysed], ?_⟩
  rw [processDiscourse]
  generalize doc.markDiscourse = x
  obtain ⟨found, search⟩ := x.findSpeakers_eq lex
  have text : (x.findSpeakers lex).describeSpeakers.reconcileSpeakers.sentences = x.sentences := by
    rw [search]
    rfl
  obtain ⟨pairs, last⟩ := findSpeakerPairs_eq
    (x.findSpeakers lex).describeSpeakers.reconcileSpeakers.markSpeakers
  rw [last]
  generalize (x.findSpeakers lex).describeSpeakers.reconcileSpeakers = r at text
  have spoken : (r.mapTokens (respoken r.speakers)).mapTokens Token.unspoken =
      r.mapTokens Token.unspoken := by
    rw [mapTokens_mapTokens]
    refine congrArg r.mapTokens (funext fun t => ?_)
    rw [Function.comp_apply, respoken]
    split <;> rfl
  have final : (r.markSpeakers.mapTokens Token.unspoken).sentences =
      (r.mapTokens Token.unspoken).sentences := congrArg Document.sentences spoken
  have same : (r.mapTokens Token.unspoken).sentences =
      (x.mapTokens Token.unspoken).sentences := by
    rw [mapTokens, text, mapTokens]
  exact final.trans same

/-- What remains in a prepared document `d` of the analysis of `x`, which had been laid out. -/
structure Analysed (lex : Lexicon) (x d : Document) : Prop where
  untold : x.Untold
  byId : x.MentionsById
  listed : ∀ id ∈ x.mentions.keys, id ∈ x.predicted.flatten
  genre : d.genre = x.markDiscourse.genre
  speakerPairs : d.speakerPairs = (x.processDiscourse lex).speakerPairs
  reads : x.markDiscourse.ReadsAlike d
  heard : KeepsMentions Mention.heard x.markDiscourse d

/-- What a preparation that succeeds goes through. -/
theorem exists_analysed_of_prepare (fresh : doc.Fresh) (untold : doc.Untold)
    (ok : doc.prepare lex settings raw = (d, .ok counts)) : ∃ x, Analysed lex x d := by
  obtain ⟨given, taken, count, -, taking, rfl⟩ := exists_taken_of_prepare ok
  obtain ⟨gold, built, filled, takenUp⟩ := initializeMentions_cases fresh taking
  have same : doc.SameButMentions taken := by
    have same := sameButMentions_initializeMentions doc lex settings.twins given
    rwa [taking] at same
  have byId : taken.MentionsById := fun id m found => ((takenUp.find?_mentions_iff id m).mp found).2
  have laid := sameRegister_laidOut taken settings
  have untold := (untold.of_sameButMentions same).laidOut settings
  have byId := laid.cores.mentionsById (fun _ => rfl) byId
  have listed := fun id => (laid.listed_iff takenUp.identified.listed id).mpr
  rw [Document.analysed]
  generalize taken.laidOut settings = x at *
  have reads := x.readsAlike_processDiscourse lex
  have genre := (x.processDiscourse_fields lex).1
  obtain ⟨sentences, speakers, speakerInfo, speakerPairs, analysed⟩ := x.processDiscourse_eq lex
  have heard : KeepsMentions Mention.heard x.markDiscourse (x.processDiscourse lex) := by
    rw [analysed]
    exact .of_eq rfl
  generalize processed : x.processDiscourse lex = z at *
  have rest := ((sameButMentions_initializeClusters z).trans
    (sameButMentions_gatherGoldClusters _)).trans (sameButMentions_assignPlaces _)
  have register := ((sameRegister_initializeClusters z).trans
    (sameRegister_gatherGoldClusters _)).trans (sameRegister_assignPlaces _)
  have gathered : KeepsMentions Mention.heard z.initializeClusters
      z.initializeClusters.gatherGoldClusters.1 := by
    obtain ⟨goldClusters, gathered⟩ := z.initializeClusters.gatherGoldClusters_eq
    rw [gathered]
    exact .of_eq rfl
  have clustered := (z.keepsMentions_initializeClusters (g := Mention.heard) fun _ _ => rfl).trans
    gathered
  have placed := clustered.trans (keepsMentions_assignPlaces _ fun _ _ => rfl)
  refine ⟨x, untold, byId, listed, ?_, ?_, ⟨?_, ?_⟩, heard.trans placed⟩
  · rw [← genre, rest.eq]
    rfl
  · rw [processed, rest.eq]
    rfl
  · exact register.headed.trans reads.headed
  · rw [mapTokens, rest.sentences]
    exact reads.sentences

namespace Analysed

variable {x : Document}

theorem mentionsById (h : Analysed lex x d) : d.MentionsById :=
  h.heard.mentionsById (fun _ => rfl) h.byId.markDiscourse

theorem reconciledName (h : Analysed lex x d) (name : String) :
    d.reconciledName name = x.markDiscourse.reconciledName name :=
  reconciledName_eq (g := Mention.heard) (fun _ => rfl) (fun _ => rfl) (fun _ => rfl)
    h.heard.map_values name

theorem contains (h : Analysed lex x d) (id : MentionId) :
    d.mentions.contains id = x.markDiscourse.mentions.contains id := h.heard.isSome_eq id

/-- The utterance of a mention is that of its head token. -/
theorem utterance (h : Analysed lex x d) {id : MentionId} {m : Mention}
    (found : x.markDiscourse.mention? id = some m) :
    m.utterance = ((x.markDiscourse.headToken? m).map Token.utterance).getD 0 := by
  have listed : id ∈ x.predicted.flatten := by
    refine h.listed id ((Table.mem_keys_iff _ _).mpr ?_)
    rw [← mention?, ← x.keepsCore_markDiscourse.isSome_eq, found]
    rfl
  rw [utterance_of_listed h.byId listed found, headToken?, tokenAt?, headToken?, tokenAt?,
    x.markDiscourse_cases.2.1]

/-- In an unmarked article a mention is paired with the mention whose id stands in the end for the
subject that narration names for its utterance. -/
theorem mem_speakerPairs_iff (h : Analysed lex x d) (article : d.genre = .article)
    (a b : MentionId) :
    (a, b) ∈ d.speakerPairs.toList ↔
      ∃ m p name, d.mention? a = some m ∧ d.narratedSubject? lex m.utterance = some p ∧
        d.subjectText? p = some name ∧ isDecimalId (d.reconciledName name) = true ∧
        decimalValue? (d.reconciledName name) = some b ∧ d.mentions.contains b = true := by
  rw [h.speakerPairs, Document.mem_speakerPairs_iff h.untold (h.genre ▸ article)]
  simp only [h.reads.narratedSubject?, h.reads.subjectText?, h.reconciledName, h.contains]
  constructor
  · rintro ⟨m, listed, same, t, p, name, head, rest⟩
    have found := (h.byId.markDiscourse.mem_values_iff m a).mp ⟨listed, same⟩
    have utterance := h.utterance found
    rw [head, Option.map_some, Option.getD_some] at utterance
    obtain ⟨m', found', kept⟩ := h.heard.symm.exists_mention? found
    have kept : m'.utterance = m.utterance := (congrArg Mention.utterance kept :)
    exact ⟨m', p, name, found', kept ▸ utterance ▸ rest⟩
  · rintro ⟨m', p, name, found', subject, rest⟩
    obtain ⟨m, found, kept⟩ := h.heard.exists_mention? found'
    have kept : m.utterance = m'.utterance := (congrArg Mention.utterance kept :)
    obtain ⟨listed, same⟩ := (h.byId.markDiscourse.mem_values_iff m a).mpr found
    have utterance := h.utterance found
    obtain ⟨st, mem, begins, -⟩ := exists_stretch_of_narratedSubject? subject
    -- A mention that is headed by no token is in utterance 0, where no stretch begins.
    have outside := utterance_ne_zero_of_mem_stretchesFrom (fun _ none => by cases none) mem
    cases head : x.markDiscourse.headToken? m with
    | none =>
      rw [head, kept, ← begins] at utterance
      exact absurd utterance outside
    | some t =>
      rw [head, Option.map_some, Option.getD_some, kept] at utterance
      exact ⟨m, listed, same, t, p, name, head, utterance ▸ subject, rest⟩

end Analysed

/-! ## Vouched and misread speakers -/

/-- A name belongs to a mention if it is the text of the mention, or if the mention is proper and
shares a word with it. -/
def IsNamed (d : Document) (id : MentionId) (name : String) : Prop :=
  ∃ m, d.mention? id = some m ∧
    (m.matchesStrictly (.ofSpeaker name) = true ∨ m.matchesLoosely (.ofSpeaker name) = true)

/-- For a quotation that begins in the utterance of `a` narration names a subject that heads `b`, or
whose word is a name of `b`. -/
def Vouched (d : Document) (lex : Lexicon) (a b : MentionId) : Prop :=
  ∃ m, d.mention? a = some m ∧ ∃ st ∈ d.stretches, st.utterance = m.utterance ∧
    ∃ p, d.quotationSubject? lex st = some p ∧
      (d.headed.find? p = some b ∨ ∃ t, d.tokenAt? p.1 p.2 = some t ∧ d.IsNamed b t.word)

/-- The subject that narration names for the utterance of `a` heads no mention, and its word is a
number which happens to be the id of `b`. -/
def Misread (d : Document) (lex : Lexicon) (a b : MentionId) : Prop :=
  ∃ m p t, d.mention? a = some m ∧ d.narratedSubject? lex m.utterance = some p ∧
    d.headed.find? p = none ∧ d.tokenAt? p.1 p.2 = some t ∧ isDecimalId t.word = true ∧
      decimalValue? t.word = some b ∧ d.mentions.contains b = true

/-- The mention that a name is reconciled with bears it. -/
theorem isNamed_of_namesake? (byId : d.MentionsById) {name : String} {m : Mention}
    (found : d.namesake? name = some m) : d.IsNamed m.id name := by
  rw [namesake?] at found
  obtain ⟨-, found⟩ := Option.ite_none_right_eq_some.mp found
  have matched : m ∈ d.mentions.values ∧ (m.matchesStrictly (.ofSpeaker name) = true ∨
      m.matchesLoosely (.ofSpeaker name) = true) := by
    rw [mentionOfName?, Option.orElse_eq_orElse, Option.orElse_eq_or, Option.or_eq_some_iff]
      at found
    rcases found with strictly | ⟨-, loosely⟩
    · have matched := List.find?_some strictly
      exact ⟨List.mem_of_find?_eq_some strictly, .inl matched⟩
    · have matched := List.find?_some loosely
      exact ⟨List.mem_of_find?_eq_some loosely, .inr matched⟩
  exact ⟨m, (byId.mem_values_iff m m.id).mp ⟨matched.1, rfl⟩, matched.2⟩

namespace Analysed

variable {x : Document}

/-- A number that heads no mention is read as an id. -/
theorem mem_of_misread (h : Analysed lex x d) (article : d.genre = .article) {a b : MentionId}
    (misread : d.Misread lex a b) : (a, b) ∈ d.speakerPairs.toList := by
  obtain ⟨m, p, t, found, subject, unheaded, here, decimal, value, known⟩ := misread
  have text : d.subjectText? p = some t.word := by
    rw [subjectText?, unheaded, here]
    rfl
  have name : d.reconciledName t.word = t.word := by
    refine reconciledName_of_unreal (Bool.eq_false_iff.mpr fun real => ?_)
    rw [isDecimalId_of_hasRealName real] at decimal
    cases decimal
  refine (h.mem_speakerPairs_iff article a b).mpr
    ⟨m, p, t.word, found, subject, text, ?_, ?_, known⟩
  · rw [name]
    exact decimal
  · rw [name]
    exact value

/-- Whoever is paired with a mention is vouched for, or misread. -/
theorem vouched_or_misread (h : Analysed lex x d) (article : d.genre = .article) {a b : MentionId}
    (paired : (a, b) ∈ d.speakerPairs.toList) : d.Vouched lex a b ∨ d.Misread lex a b := by
  obtain ⟨m, p, name, found, subject, text, decimal, value, known⟩ :=
    (h.mem_speakerPairs_iff article a b).mp paired
  obtain ⟨st, mem, begins, found'⟩ := exists_stretch_of_narratedSubject? subject
  rw [subjectText?] at text
  cases headed : d.headed.find? p with
  | some id =>
    rw [headed] at text
    obtain rfl := Option.some.inj text
    rw [reconciledName_of_unreal (hasRealName_toString id)] at value
    obtain rfl := eq_of_decimalValue?_toString value
    exact .inl ⟨m, found, st, mem, begins, p, found', .inl headed⟩
  | none =>
    rw [headed] at text
    obtain ⟨t, here, rfl⟩ := Option.map_eq_some_iff.mp text
    rw [Document.reconciledName] at decimal value
    cases namesake : d.namesake? t.word with
    | some other =>
      rw [namesake] at value
      obtain rfl := eq_of_decimalValue?_toString value
      have named := isNamed_of_namesake? h.mentionsById namesake
      exact .inl ⟨m, found, st, mem, begins, p, found', .inr ⟨t, here, named⟩⟩
    | none =>
      rw [namesake] at decimal value
      exact .inr ⟨m, p, t, found, subject, headed, here, decimal, value, known⟩

end Analysed

/-- In an unmarked article narration vouches for the speaker of a mention, or the word of the subject
is a number and is misread as an id.  So it vouches for every speaker exactly if it does so where a
number is misread. -/
theorem speakerPairs_vouched_iff (fresh : doc.Fresh) (untold : doc.Untold)
    (ok : doc.prepare lex settings raw = (d, .ok counts)) (article : d.genre = .article) :
    (∀ a b, (a, b) ∈ d.speakerPairs.toList → d.Vouched lex a b ∨ d.Misread lex a b) ∧
      ((∀ a b, (a, b) ∈ d.speakerPairs.toList → d.Vouched lex a b) ↔
        ∀ a b, d.Misread lex a b → d.Vouched lex a b) := by
  obtain ⟨x, analysed⟩ := exists_analysed_of_prepare fresh untold ok
  have cases : ∀ a b, (a, b) ∈ d.speakerPairs.toList → d.Vouched lex a b ∨ d.Misread lex a b :=
    fun a b paired => analysed.vouched_or_misread article paired
  refine ⟨cases, fun vouched a b misread => ?_, fun vouched a b paired => ?_⟩
  · exact vouched a b (analysed.mem_of_misread article misread)
  · rcases cases a b paired with already | misread
    · exact already
    · exact vouched a b misread

/-- The subject in front of a quotation heads no mention, but it is the name of the one mention. -/
theorem speakerPairs_vouched_iff_named :
    let lex : Lexicon := ⟨KeySet.ofList ["say"], {}, {}, {}, {}⟩
    let doc := ofSentences "d" [
      { tokens := [.ofWord "Joe" "NNP", { Token.ofWord "said" "VBD" with baseForm := "say" },
          .ofWord "\"" "``", .ofWord "joe" "NNP", .ofWord "\"" "''"]
        basic? := some ⟨[⟨none, 1, "root"⟩, ⟨some 1, 0, "nsubj"⟩]⟩ }]
    let raw : RawMentions := { predicted := [[{ start := 3, stop := 4 }]], gold? := none }
    let d := (doc.prepare lex {} raw).1
    doc.Fresh ∧ doc.Untold ∧ (∃ counts, doc.prepare lex {} raw = (d, .ok counts)) ∧
      d.genre = .article ∧ d.speakerPairs.toList = [(0, 0)] ∧ d.Vouched lex 0 0 := by
  intro lex doc raw d
  have fresh : doc.Fresh := fresh_ofSentences _ _
  have untold : doc.Untold := untold_ofSentences _ _
  have outcome : (doc.prepare lex {} raw).2 = .ok ⟨1, 0, 0, 2, 0, 2⟩ := by decide +kernel
  have ok : doc.prepare lex {} raw = (d, .ok ⟨1, 0, 0, 2, 0, 2⟩) := by rw [← outcome]
  have article : d.genre = .article := by decide +kernel
  have pairs : d.speakerPairs.toList = [(0, 0)] := by decide +kernel
  have utterance : (d.mention? 0).map Mention.utterance = some 1 := by decide +kernel
  have subject : d.narratedSubject? lex 1 = some (0, 0) := by decide +kernel
  have word : (d.tokenAt? 0 0).map Token.word = some "Joe" := by decide +kernel
  have paired : (0, 0) ∈ d.speakerPairs.toList := by rw [pairs]; exact List.mem_singleton_self _
  obtain ⟨cases, -⟩ := speakerPairs_vouched_iff fresh untold ok article
  refine ⟨fresh, untold, ⟨_, ok⟩, article, pairs, (cases 0 0 paired).resolve_right ?_⟩
  rintro ⟨m, p, t, found, named, -, here, decimal, -⟩
  rw [found, Option.map_some, Option.some.injEq] at utterance
  rw [utterance, subject] at named
  cases named
  rw [here, Option.map_some, Option.some.injEq] at word
  rw [word] at decimal
  revert decimal
  decide +kernel

/-- The number in front of a quotation is taken for the pronoun in it, which has that id. -/
theorem speakerPairs_misread_number :
    let lex : Lexicon := ⟨KeySet.ofList ["say"], {}, {}, {}, {}⟩
    let doc := ofSentences "d" [
      { tokens := [.ofWord "0" "CD", { Token.ofWord "said" "VBD" with baseForm := "say" },
          .ofWord "\"" "``", .ofWord "I" "PRP", .ofWord "\"" "''"]
        basic? := some ⟨[⟨none, 1, "root"⟩, ⟨some 1, 0, "nsubj"⟩]⟩ }]
    let raw : RawMentions :=
      { predicted := [[{ start := 3, stop := 4, head? := some 3 }]], gold? := none }
    let d := (doc.prepare lex {} raw).1
    doc.Fresh ∧ doc.Untold ∧ (∃ counts, doc.prepare lex {} raw = (d, .ok counts)) ∧
      d.genre = .article ∧ (0, 0) ∈ d.speakerPairs.toList ∧ ¬ d.Vouched lex 0 0 := by
  intro lex doc raw d
  have outcome : (doc.prepare lex {} raw).2 = .ok ⟨1, 0, 0, 2, 0, 2⟩ := by decide +kernel
  have ok : doc.prepare lex {} raw = (d, .ok ⟨1, 0, 0, 2, 0, 2⟩) := by rw [← outcome]
  have stretches : d.stretches = [⟨1, (0, 3), (0, 4)⟩] := by decide +kernel
  have subject : d.quotationSubject? lex ⟨1, (0, 3), (0, 4)⟩ = some (0, 0) := by decide +kernel
  have unheaded : d.headed.find? (0, 0) = none := by decide +kernel
  have word : (d.tokenAt? 0 0).map Token.word = some "0" := by decide +kernel
  have unlike : (d.mention? 0).map (fun m => m.matchesStrictly (.ofSpeaker "0") ||
      m.matchesLoosely (.ofSpeaker "0")) = some false := by decide +kernel
  refine ⟨fresh_ofSentences _ _, untold_ofSentences _ _, ⟨_, ok⟩, by decide +kernel,
    by decide +kernel, ?_⟩
  rintro ⟨-, -, st, mem, -, p, found, given⟩
  rw [stretches] at mem
  obtain rfl := List.mem_singleton.mp mem
  cases subject.symm.trans found
  rcases given with headed | ⟨t, here, m, known, alike⟩
  · cases unheaded.symm.trans headed
  · rw [here, Option.map_some, Option.some.injEq] at word
    rw [known, Option.map_some, Option.some.injEq, Bool.or_eq_false_iff] at unlike
    rw [word, unlike.1, unlike.2] at alike
    rcases alike with strictly | loosely
    · cases strictly
    · cases loosely

end Document

end Discourse
