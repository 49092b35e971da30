import Discourse.Proofs.Dialogue.Naming
import Discourse.Proofs.Dialogue.Quoting
import Mathlib.Data.List.Basic
/-!
# Who speaks what

What the analysis of the discourse leaves behind (`Document.Spoken`), whatever it found on the way:
every utterance has a speaker, who is at its tokens and is described; listed mentions are in the
utterance of their head tokens; and the pairs of a mention and the mention of its speaker are those
that speakers written as mention ids give.

Each stage is opened once, for the fields that it writes: the machine writes tokens, the search
speakers, the reconciliation speakers and their descriptions.
-/

namespace Discourse

namespace Document

/-- Every mention stands in the table under its own id. -/
def MentionsById (doc : Document) : Prop := ∀ id m, doc.mention? id = some m → m.id = id

theorem MentionsById.addMention {doc : Document} (byId : doc.MentionsById) (m : Mention) :
    (doc.addMention m).MentionsById := by
  intro id m' found
  rw [mention?, Document.addMention, Table.find?_insert] at found
  split at found
  next same =>
    obtain rfl := Option.some.inj found
    exact same.symm
  next => exact byId id m' found

/-- What is known of a document `d` once the discourse of `doc` has been analysed. -/
structure Spoken (doc d : Document) : Prop where
  /-- Every token is spoken by the speaker of its utterance. -/
  spoken : ∀ t ∈ d.tokens, ∃ s, d.speakers.find? t.utterance = some s ∧ t.speaker? = some s
  /-- Every speaker is described. -/
  known : d.SpeakersKnown
  /-- Every listed mention is in the utterance of its head token. -/
  heard : doc.MentionsById → ∀ id ∈ d.predicted.flatten, ∀ m, d.mention? id = some m →
    m.utterance = ((d.headToken? m).map Token.utterance).getD 0
  /-- The speakers of a marked document that was not read from columns are no ids. -/
  unpaired : doc.marked = true → doc.fromColumns = false → d.speakerPairs.toList = []
  /-- Otherwise a mention is paired with the mention that speaks its head token. -/
  paired : ¬(doc.marked = true ∧ doc.fromColumns = false) → ∀ a b,
    (a, b) ∈ d.speakerPairs.toList ↔
      ∃ m ∈ d.mentions.values, m.id = a ∧ ∃ t s, d.headToken? m = some t ∧
        d.speakers.find? t.utterance = some s ∧ isDecimalId s = true ∧
        decimalValue? s = some b ∧ d.mentions.contains b = true
  /-- No mention is paired with two. -/
  once : doc.MentionsById → ∀ a b c, (a, b) ∈ d.speakerPairs.toList →
    (a, c) ∈ d.speakerPairs.toList → b = c

/-! ## Utterances of mentions -/

theorem tokenAt?_mapTokens (doc : Document) (f : Token → Token) (sentence place : Nat) :
    (doc.mapTokens f).tokenAt? sentence place = (doc.tokenAt? sentence place).map f := by
  rw [tokenAt?, tokenAt?, mapTokens, List.getElem?_map]
  cases doc.sentences[sentence]? with
  | none => rfl
  | some s => exact List.getElem?_map ..

theorem markHeads_eq (doc : Document) (f : Option Token → Mention → Mention) :
    doc.markHeads f =
      { doc with
        mentions := doc.orderedMentions.foldl
          (fun t m => t.modify m.id (f (doc.headToken? m))) doc.mentions } := by
  have go : ∀ (ms : List Mention) (d : Document),
      ms.foldl (fun d m => d.modifyMention m.id (f (doc.headToken? m))) d =
        { d with
          mentions := ms.foldl (fun t m => t.modify m.id (f (doc.headToken? m))) d.mentions } := by
    intro ms
    induction ms with
    | nil => exact fun d => rfl
    | cons m rest ih => exact fun d => ih _
  exact go doc.orderedMentions doc

/-- Where mentions stand under their ids, marking them by their head tokens changes each listed one
by its own head token. -/
theorem mention?_markHeads {doc : Document} (byId : doc.MentionsById)
    {f : Option Token → Mention → Mention} (idem : ∀ head? m, f head? (f head? m) = f head? m)
    (id : MentionId) :
    (doc.markHeads f).mention? id =
      if id ∈ doc.predicted.flatten then (doc.mention? id).map fun m => f (doc.headToken? m) m
      else doc.mention? id := by
  -- the change that an id stands for
  let change (id : MentionId) : Mention → Mention := f ((doc.mention? id).bind doc.headToken?)
  have changes : doc.orderedMentions.foldl (fun t m => t.modify m.id (f (doc.headToken? m)))
      doc.mentions = (doc.orderedMentions.map Mention.id).foldl
        (fun t id => t.modify id (change id)) doc.mentions := by
    rw [List.foldl_map]
    refine List.foldl_ext _ _ _ fun t m mem => ?_
    obtain ⟨id, -, found⟩ := List.mem_filterMap.mp mem
    have same := byId id m found
    subst same
    show _ = t.modify m.id (f ((doc.mention? m.id).bind doc.headToken?))
    rw [found, Option.bind_some]
  have listed (m : Mention) (found : doc.mention? id = some m) :
      id ∈ doc.orderedMentions.map Mention.id ↔ id ∈ doc.predicted.flatten := by
    constructor
    · intro mem
      obtain ⟨m', mem, same⟩ := List.mem_map.mp mem
      obtain ⟨id', listed, found'⟩ := List.mem_filterMap.mp mem
      rwa [← same, byId id' m' found']
    · intro mem
      exact List.mem_map.mpr ⟨m, List.mem_filterMap.mpr ⟨id, mem, found⟩, byId id m found⟩
  rw [mention?, markHeads_eq, changes, Table.find?_foldl_modify change fun id m => idem _ m]
  show (if _ then (doc.mention? id).map (change id) else doc.mention? id) = _
  cases found : doc.mention? id with
  | none => simp only [Option.map_none, ite_self]
  | some m =>
    have same : change id m = f (doc.headToken? m) m := by
      show f ((doc.mention? id).bind doc.headToken?) m = _
      rw [found, Option.bind_some]
    simp only [listed m found, Option.map_some, same]

/-- The parts of a document that no stage writes once mentions are marked. -/
structure SameGround (d d' : Document) : Prop where
  predicted : d'.predicted = d.predicted
  marked : d'.marked = d.marked
  fromColumns : d'.fromColumns = d.fromColumns
  speakerPairs : d'.speakerPairs = d.speakerPairs

theorem SameGround.trans {d d' d'' : Document} (h : d.SameGround d') (h' : d'.SameGround d'') :
    d.SameGround d'' where
  predicted := h'.predicted.trans h.predicted
  marked := h'.marked.trans h.marked
  fromColumns := h'.fromColumns.trans h.fromColumns
  speakerPairs := h'.speakerPairs.trans h.speakerPairs

theorem sameGround_uttered (doc : Document) :
    doc.SameGround doc.uttered ∧ doc.uttered.mentions = doc.mentions ∧
      doc.uttered.speakerInfo = doc.speakerInfo := by
  unfold uttered
  split
  · exact ⟨⟨rfl, rfl, rfl, rfl⟩, rfl, rfl⟩
  · exact ⟨⟨rfl, rfl, rfl, rfl⟩, rfl, rfl⟩

/-- What the marking of the discourse writes. -/
theorem markDiscourse_eq (doc : Document) :
    ∃ mentions maxUtterance speakersGiven, doc.markDiscourse =
      { doc with
        sentences := doc.uttered.sentences, mentions, maxUtterance, speakersGiven
        genre := genreOf doc.uttered.tokens } := by
  have text : ∃ speakersGiven, doc.uttered =
      { doc with sentences := doc.uttered.sentences, speakersGiven } := by
    unfold uttered
    split <;> exact ⟨_, rfl⟩
  obtain ⟨speakersGiven, text⟩ := text
  rw [markDiscourse, ← uttered, markHeads_eq]
  generalize doc.uttered = spoken at *
  rw [text]
  exact ⟨_, _, _, rfl⟩

theorem markDiscourse_cases (doc : Document) :
    doc.SameGround doc.markDiscourse ∧ doc.markDiscourse.sentences = doc.uttered.sentences ∧
      doc.markDiscourse.speakerInfo = doc.speakerInfo := by
  obtain ⟨mentions, maxUtterance, speakersGiven, marked⟩ := doc.markDiscourse_eq
  rw [marked]
  exact ⟨⟨rfl, rfl, rfl, rfl⟩, rfl, rfl⟩

theorem mention?_markDiscourse {doc : Document} (byId : doc.MentionsById) (id : MentionId) :
    doc.markDiscourse.mention? id =
      if id ∈ doc.predicted.flatten then
        (doc.mention? id).map fun m =>
          { m with utterance := ((doc.uttered.headToken? m).map Token.utterance).getD 0 }
      else doc.mention? id := by
  obtain ⟨ground, mentions, -⟩ := doc.sameGround_uttered
  have same : doc.uttered.mention? = doc.mention? := by
    funext id
    rw [mention?, mentions, mention?]
  have byId' : doc.uttered.MentionsById := by
    rw [MentionsById, same]
    exact byId
  rw [← same, ← ground.predicted]
  exact mention?_markHeads byId' (f := fun head? m =>
    { m with utterance := (head?.map Token.utterance).getD 0 }) (fun _ _ => rfl) id

theorem MentionsById.markDiscourse {doc : Document} (byId : doc.MentionsById) :
    doc.markDiscourse.MentionsById := by
  intro id m found
  rw [mention?_markDiscourse byId] at found
  split at found
  · obtain ⟨m', before, rfl⟩ := Option.map_eq_some_iff.mp found
    exact byId id m' before
  · exact byId id m found

theorem utterance_of_listed {doc : Document} (byId : doc.MentionsById) {id : MentionId}
    {m : Mention} (listed : id ∈ doc.predicted.flatten)
    (found : doc.markDiscourse.mention? id = some m) :
    m.utterance = ((doc.uttered.headToken? m).map Token.utterance).getD 0 := by
  rw [mention?_markDiscourse byId, if_pos listed] at found
  obtain ⟨m', -, rfl⟩ := Option.map_eq_some_iff.mp found
  rfl

/-! ## The stages -/

theorem giveTurns_eq (doc : Document) (lex : Lexicon) (announced? : Option String)
    (turns : List (Nat × Nat)) :
    ∃ speakers, doc.giveTurns lex announced? turns = { doc with speakers } := by
  induction turns generalizing doc announced? with
  | nil => exact ⟨doc.speakers, rfl⟩
  | cons turn rest ih =>
    obtain ⟨utterance, last⟩ := turn
    simp only [giveTurns]
    split
    next => exact ih doc _
    next =>
      split
      next speaker _ =>
        obtain ⟨speakers, eq⟩ := ih { doc with speakers := doc.speakers.insert utterance speaker } _
        exact ⟨speakers, eq⟩
      next => exact ih doc _

theorem findSpeakers_eq (doc : Document) (lex : Lexicon) :
    ∃ found : Table Nat String, doc.findSpeakers lex =
      { doc with
        speakers := doc.firstSpeakers.entries.foldl
          (fun t entry => t.insertNew entry.1 entry.2) found } := by
  unfold findSpeakers
  split
  next => exact ⟨doc.speakers, rfl⟩
  next =>
    split
    next =>
      obtain ⟨speakers, eq⟩ := giveTurns_eq _ lex none (turns 0 doc.sentences)
      exact ⟨speakers, by rw [findSpeakersInConversation, eq]; rfl⟩
    next => exact ⟨_, rfl⟩

theorem contains_firstSpeakers {doc : Document} {t : Token} (mem : t ∈ doc.tokens) :
    doc.firstSpeakers.contains t.utterance = true :=
  (Table.contains_foldl_insertNew Token.utterance _ doc.tokens {} t.utterance).mpr
    (.inr ⟨t, mem, rfl⟩)

theorem contains_findSpeakers {doc : Document} (lex : Lexicon) {t : Token} (mem : t ∈ doc.tokens) :
    (doc.findSpeakers lex).speakers.contains t.utterance = true := by
  obtain ⟨found, eq⟩ := doc.findSpeakers_eq lex
  obtain ⟨speaker, first⟩ := Option.isSome_iff_exists.mp (contains_firstSpeakers mem)
  rw [eq]
  refine (Table.contains_foldl_insertNew Prod.fst Prod.snd _ found _).mpr (.inr ?_)
  exact ⟨(t.utterance, speaker), (Table.mem_entries_iff _ _ _).mpr first, rfl⟩

theorem describeSpeakers_known (doc : Document) : doc.describeSpeakers.SpeakersKnown := by
  intro utterance s found
  have spoken : s ∈ doc.speakers.values :=
    List.mem_map.mpr ⟨(utterance, s), (Table.mem_entries_iff _ _ _).mpr found, rfl⟩
  exact (Table.contains_foldl_insertNew (fun s => s) SpeakerInfo.ofSpeaker _ _ s).mpr
    (.inr ⟨s, spoken, rfl⟩)

theorem describeSpeakers_plain {doc : Document} (undescribed : doc.speakerInfo = {}) {s : String}
    {info : SpeakerInfo} (found : doc.describeSpeakers.speakerInfo.find? s = some info) :
    info = .ofSpeaker s := by
  rcases Table.find?_foldl_insertNew (fun s => s) SpeakerInfo.ofSpeaker found with
    before | ⟨_, _, rfl, rfl⟩
  · rw [undescribed, Table.find?_empty] at before
    cases before
  · rfl

/-- Every utterance of a token has a speaker. -/
def UtterancesSpoken (doc : Document) : Prop :=
  ∀ t ∈ doc.tokens, doc.speakers.contains t.utterance = true

/-- Once speakers are reconciled with mentions every utterance is spoken, every speaker described, and
nothing else has been written since mentions were marked. -/
theorem reconciled_cases {doc : Document} (undescribed : doc.speakerInfo = {}) (lex : Lexicon)
    {d : Document} (eq : (doc.findSpeakers lex).describeSpeakers.reconcileSpeakers = d) :
    doc.SameGround d ∧ d.sentences = doc.sentences ∧ d.mentions = doc.mentions ∧
      d.UtterancesSpoken ∧ d.SpeakersKnown := by
  obtain ⟨found, search⟩ := doc.findSpeakers_eq lex
  have spoken : ∀ t ∈ doc.tokens, (doc.findSpeakers lex).speakers.contains t.utterance = true :=
    fun t mem => contains_findSpeakers lex mem
  have undescribed : (doc.findSpeakers lex).speakerInfo = {} := by rw [search, undescribed]
  have known := (describeSpeakers_known _).reconcileSpeakers fun s info =>
    describeSpeakers_plain undescribed
  generalize doc.findSpeakers lex = searched at *
  subst eq search
  refine ⟨⟨rfl, rfl, rfl, rfl⟩, rfl, rfl, fun t mem => ?_, known⟩
  obtain ⟨s, found⟩ := Option.isSome_iff_exists.mp (spoken t mem)
  rw [Table.contains, Document.reconcileSpeakers, Table.mapValues, Table.find?_mapEntries,
    Option.isSome_map]
  exact Option.isSome_of_mem found

theorem utterance_markSpeakers (doc : Document) (m : Mention) :
    (doc.markSpeakers.headToken? m).map Token.utterance =
      (doc.headToken? m).map Token.utterance := by
  rw [headToken?, markSpeakers, tokenAt?_mapTokens, Option.map_map]
  refine congrArg (Option.map · _) (funext fun t => ?_)
  dsimp only [Function.comp_apply]
  split <;> rfl

theorem UtterancesSpoken.markSpeakers {doc : Document} (spoken : doc.UtterancesSpoken) :
    ∀ t ∈ doc.markSpeakers.tokens,
      ∃ s, doc.speakers.find? t.utterance = some s ∧ t.speaker? = some s := by
  intro t mem
  rw [Document.markSpeakers, tokens_mapTokens] at mem
  obtain ⟨u, source, rfl⟩ := List.mem_map.mp mem
  obtain ⟨s, found⟩ := Option.isSome_iff_exists.mp (spoken u source)
  refine ⟨s, ?_, ?_⟩
  · simp only [found]
    exact found
  · simp only [found]

/-! ## Pairs -/

theorem speakerMention?_eq_some_iff {doc : Document} {m : Mention} {b : MentionId} :
    doc.speakerMention? m = some b ↔
      ∃ t s, doc.headToken? m = some t ∧ t.speaker? = some s ∧ isDecimalId s = true ∧
        decimalValue? s = some b ∧ doc.mentions.contains b = true := by
  simp only [speakerMention?, Option.bind_eq_bind, Option.bind_eq_some_iff]
  constructor
  · rintro ⟨s, ⟨t, head, speaker⟩, named⟩
    split at named
    next => cases named
    next decimal =>
      obtain ⟨id, value, listed⟩ := Option.bind_eq_some_iff.mp named
      obtain ⟨listed, same⟩ := Option.ite_none_right_eq_some.mp listed
      cases same
      exact ⟨t, s, head, speaker, by simpa using decimal, value, listed⟩
  · rintro ⟨t, s, head, speaker, decimal, value, listed⟩
    refine ⟨s, ⟨t, head, speaker⟩, ?_⟩
    simp [decimal, value, listed]

theorem mem_findSpeakerPairs_iff {doc : Document} (unpaired : doc.speakerPairs = {})
    (ids : ¬(doc.marked = true ∧ doc.fromColumns = false)) (a b : MentionId) :
    (a, b) ∈ doc.findSpeakerPairs.speakerPairs.toList ↔
      ∃ m ∈ doc.mentions.values, m.id = a ∧ doc.speakerMention? m = some b := by
  rw [findSpeakerPairs, if_neg (by simpa [and_comm] using ids)]
  show (a, b) ∈ (doc.speakerPairs.insertAll _).toList ↔ _
  rw [KeySet.mem_insertAll, unpaired, KeySet.toList_empty, List.mem_filterMap]
  simp [and_comm]

/-- Pairs are written last, and nothing else with them. -/
theorem findSpeakerPairs_eq (doc : Document) :
    ∃ speakerPairs, doc.findSpeakerPairs = { doc with speakerPairs } := by
  unfold findSpeakerPairs
  split
  · exact ⟨doc.speakerPairs, rfl⟩
  · exact ⟨_, rfl⟩

theorem findSpeakerPairs_of_marked {doc : Document} (marked : doc.marked = true)
    (fromColumns : doc.fromColumns = false) : doc.findSpeakerPairs = doc := by
  rw [findSpeakerPairs, marked, fromColumns, Bool.not_false, Bool.and_true, if_pos rfl]

theorem mem_tokens_of_headToken? {doc : Document} {m : Mention} {t : Token}
    (head : doc.headToken? m = some t) : t ∈ doc.tokens := by
  obtain ⟨s, sentence, place⟩ := Option.bind_eq_some_iff.mp head
  exact List.mem_flatMap.mpr ⟨s, List.mem_of_getElem? sentence, List.mem_of_getElem? place⟩

theorem eq_of_id_eq {doc : Document} (byId : doc.MentionsById) {m m' : Mention}
    (listed : m ∈ doc.mentions.values) (listed' : m' ∈ doc.mentions.values) (same : m.id = m'.id) :
    m = m' := by
  obtain ⟨⟨id, m⟩, entry, rfl⟩ := List.mem_map.mp listed
  obtain ⟨⟨id', m'⟩, entry', rfl⟩ := List.mem_map.mp listed'
  have found := (Table.mem_entries_iff _ _ _).mp entry
  have found' := (Table.mem_entries_iff _ _ _).mp entry'
  dsimp only at same ⊢
  rw [← byId id m found, same, byId id' m' found', found'] at found
  exact (Option.some.inj found).symm

/-- Once tokens carry the speakers of their utterances, the pairs can be read off the utterances. -/
theorem mem_findSpeakerPairs_markSpeakers_iff {doc : Document} (spoken : doc.UtterancesSpoken)
    (unpaired : doc.speakerPairs = {}) (ids : ¬(doc.marked = true ∧ doc.fromColumns = false))
    (a b : MentionId) :
    (a, b) ∈ doc.markSpeakers.findSpeakerPairs.speakerPairs.toList ↔
      ∃ m ∈ doc.mentions.values, m.id = a ∧ ∃ t s, doc.markSpeakers.headToken? m = some t ∧
        doc.speakers.find? t.utterance = some s ∧ isDecimalId s = true ∧
        decimalValue? s = some b ∧ doc.mentions.contains b = true := by
  have unpaired : doc.markSpeakers.speakerPairs = {} := unpaired
  refine (mem_findSpeakerPairs_iff unpaired ids a b).trans ?_
  refine exists_congr fun m => and_congr_right fun _ => and_congr_right fun _ => ?_
  refine speakerMention?_eq_some_iff.trans (exists_congr fun t => exists_congr fun s => ?_)
  refine and_congr_right fun head => and_congr_left fun _ => ?_
  obtain ⟨s', found, speaker⟩ := spoken.markSpeakers t (mem_tokens_of_headToken? head)
  rw [speaker, found]

/-- Where mentions stand under their ids, none is paired with two. -/
theorem findSpeakerPairs_once {doc : Document} (byId : doc.MentionsById)
    (unpaired : doc.speakerPairs = {}) {a b c : MentionId}
    (first : (a, b) ∈ doc.findSpeakerPairs.speakerPairs.toList)
    (second : (a, c) ∈ doc.findSpeakerPairs.speakerPairs.toList) : b = c := by
  by_cases ids : doc.marked = true ∧ doc.fromColumns = false
  · rw [findSpeakerPairs_of_marked ids.1 ids.2, unpaired] at first
    cases first
  · obtain ⟨m, listed, rfl, speaks⟩ := (mem_findSpeakerPairs_iff unpaired ids a b).mp first
    obtain ⟨m', listed', same, speaks'⟩ := (mem_findSpeakerPairs_iff unpaired ids m.id c).mp second
    obtain rfl := eq_of_id_eq byId listed' listed same
    exact Option.some.inj (speaks.symm.trans speaks')

/-- The analysis of the discourse of a document whose speakers are not known yet. -/
theorem processDiscourse_spoken (doc : Document) (lex : Lexicon)
    (undescribed : doc.speakerInfo = {}) (unpaired : doc.speakerPairs = {}) :
    doc.Spoken (doc.processDiscourse lex) := by
  obtain ⟨marking, text, sameInfo⟩ := doc.markDiscourse_cases
  obtain ⟨finding, text', mentions, spoken, known⟩ :=
    reconciled_cases (sameInfo.trans undescribed) lex rfl
  rw [processDiscourse]
  generalize (doc.markDiscourse.findSpeakers lex).describeSpeakers.reconcileSpeakers = d at *
  have ground := marking.trans finding
  have unpaired : d.speakerPairs = {} := ground.speakerPairs.trans unpaired
  have same : d.mention? = doc.markDiscourse.mention? := by
    funext id
    rw [mention?, mentions, mention?]
  obtain ⟨pairs, last⟩ := d.markSpeakers.findSpeakerPairs_eq
  refine ⟨?_, ?_, ?_, ?_, ?_, ?_⟩
  · rw [last]
    exact spoken.markSpeakers
  · rw [last]
    exact known
  · intro given id listed m found
    rw [last] at listed found ⊢
    have listed : id ∈ doc.predicted.flatten := ground.predicted ▸ listed
    have found : doc.markDiscourse.mention? id = some m := same ▸ found
    have head : d.headToken? m = doc.uttered.headToken? m := by
      rw [headToken?, tokenAt?, text', text, headToken?, tokenAt?]
    show m.utterance = ((d.markSpeakers.headToken? m).map Token.utterance).getD 0
    rw [utterance_markSpeakers, head]
    exact utterance_of_listed given listed found
  · intro marked fromColumns
    have marked : d.markSpeakers.marked = true := ground.marked.trans marked
    rw [findSpeakerPairs_of_marked marked (ground.fromColumns.trans fromColumns)]
    exact congrArg KeySet.toList unpaired
  · intro ids a b
    rw [← ground.marked, ← ground.fromColumns] at ids
    rw [mem_findSpeakerPairs_markSpeakers_iff spoken unpaired ids, last]
    rfl
  · intro given a b c
    have byId : d.markSpeakers.MentionsById := by
      intro id m found
      exact given.markDiscourse id m (same ▸ found)
    have unpaired : d.markSpeakers.speakerPairs = {} := unpaired
    exact findSpeakerPairs_once byId unpaired

/-- Two names of one mention and its id as a third speaker: all three utterances are spoken by the
mention. -/
theorem processDiscourse_spoken_one_speaker :
    let lex : Lexicon := ⟨{}, {}, {}, {}, {}⟩
    let sentences : List Sentence :=
      [{ tokens := [spoken "Joe" "Joe Smith"] }, { tokens := [spoken "I" "Joe"] },
        { tokens := [spoken "he" "0"] }]
    let read := { ofSentences "" sentences with marked := true, fromColumns := true }
    let joe : Mention :=
      { id := 0, sentence := 0, start := 0, stop := 1, head := 0, text := "Joe", type := .proper }
    let i : Mention := { id := 1, sentence := 1, start := 0, stop := 1, head := 0, text := "I" }
    let doc := (read.addMention joe).addMention i
    doc.speakerInfo = {} ∧ doc.speakerPairs = {} ∧ doc.MentionsById ∧
      (doc.processDiscourse lex).speakers.entries = [(0, "0"), (1, "0"), (2, "0")] ∧
      (doc.processDiscourse lex).speakerPairs.toList = [(0, 0), (1, 0)] ∧
      doc.Spoken (doc.processDiscourse lex) := by
  intro lex sentences read joe i doc
  have byId : doc.MentionsById := by
    refine MentionsById.addMention (MentionsById.addMention ?_ joe) i
    intro id m found
    cases found
  exact ⟨rfl, rfl, byId, by decide +kernel, by decide +kernel,
    doc.processDiscourse_spoken lex rfl rfl⟩

end Document

end Discourse
