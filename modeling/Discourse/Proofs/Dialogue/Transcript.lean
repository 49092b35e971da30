import Discourse.Proofs.Dialogue.Speaking
/-!
# Transcripts

A marked document without quotation glyphs, in which every token comes with a speaker of its own, is
a transcript: its turns are the runs of tokens of one speaker.  The analysis keeps them
(`processDiscourse_transcript`).  A token is in the utterance that counts the changes of speaker up
to it, and its speaker is in the end the one it came with, or the mention that the name belongs to.

The speaker of an utterance is that of its first token.  That this is the speaker of the token at
hand is the counting again: between two tokens of one utterance no speaker changes
(`speakerAt?_eq_of_speakerChanges_eq`).
-/

namespace Discourse

/-- The speaker that a token of a row came with. -/
def speakerAt? (ts : List Token) (place : Nat) : Option String := ts[place]?.bind Token.speaker?

/-- The number of changes of speaker from one token to the next, up to a token. -/
def speakerChanges (ts : List Token) (place : Nat) : Nat :=
  (List.range place).countP fun i => speakerAt? ts i != speakerAt? ts (i + 1)

section Changes

variable (ts : List Token)

theorem speakerChanges_succ (place : Nat) :
    speakerChanges ts (place + 1) = speakerChanges ts place +
      if speakerAt? ts place = speakerAt? ts (place + 1) then 0 else 1 := by
  rw [speakerChanges, List.range_succ, List.countP_append, List.countP_singleton, speakerChanges]
  congr 1
  by_cases same : speakerAt? ts place = speakerAt? ts (place + 1) <;> simp [same]

theorem speakerChanges_mono {i j : Nat} (le : i ≤ j) : speakerChanges ts i ≤ speakerChanges ts j :=
  (List.range_sublist.mpr le).countP_le

/-- Tokens with as many changes up to them have one speaker. -/
theorem speakerAt?_eq_of_speakerChanges_eq {i j : Nat}
    (same : speakerChanges ts i = speakerChanges ts j) : speakerAt? ts i = speakerAt? ts j := by
  have upward : ∀ k i, speakerChanges ts i = speakerChanges ts (i + k) →
      speakerAt? ts i = speakerAt? ts (i + k) := by
    intro k
    induction k with
    | zero => exact fun _ _ => rfl
    | succ k ih =>
      intro i same
      have first := speakerChanges_mono ts (Nat.le_add_right i k)
      have next := speakerChanges_succ ts (i + k)
      rw [← Nat.add_assoc] at same ⊢
      split at next
      next stays => rw [ih i (by omega), stays]
      next => omega
  rcases Nat.le_total i j with le | le
  · obtain ⟨k, rfl⟩ := Nat.exists_eq_add_of_le le
    exact upward k i same
  · obtain ⟨k, rfl⟩ := Nat.exists_eq_add_of_le le
    exact (upward k j same.symm).symm

theorem speakerChanges_ne_zero_iff (place : Nat) :
    speakerChanges ts place ≠ 0 ↔ ∃ i < place, speakerAt? ts i ≠ speakerAt? ts (i + 1) := by
  simp [speakerChanges]

end Changes

/-! ## The machine in a transcript -/

/-- A token of a transcript: no glyph, and with a speaker of its own. -/
structure Token.IsSpokenBy (t : Token) (name : String) : Prop where
  plain : isGlyph t.word = false
  speaker : t.speaker? = some name
  nonempty : name ≠ ""
  proper : isPlaceholderSpeaker name = false

namespace UtteranceState

/-- The machine behind a token of a speaker, with so many changes up to it. -/
structure Turned (st : UtteranceState) (name : String) (count : Nat) : Prop where
  inQuote : st.inQuote = false
  current : st.current = count
  largest : st.largest = count
  previous : st.previousSpeaker? = some name
  /-- A hyphen alone does not count as a speaker that is given. -/
  given : name = "-" ∨ st.speakersGiven = true

variable {st : UtteranceState} {t : Token} {name next : String} {count : Nat}

/-- What a token of a transcript does, whether the speaker changes at it or not. -/
theorem step_of_isSpokenBy (outside : st.inQuote = false) (spoken : t.IsSpokenBy name) :
    st.step t =
      if (st.hear t).changesSpeaker t then
        ({ t with utterance? := some (st.largest + 1) },
          { (st.hear t) with
            current := st.largest + 1
            outside := st.largest + 1
            largest := st.largest + 1
            previousSpeaker? := some name })
      else
        ({ t with utterance? := some st.current },
          { (st.hear t) with largest := max st.largest st.current }) := by
  obtain ⟨plain, speaker, nonempty, proper⟩ := spoken
  simp only [isGlyph, Bool.or_eq_false_iff] at plain
  have opens : st.opens t = false := by simp [UtteranceState.opens, plain]
  have closes : st.closes t = false := by simp [UtteranceState.closes, plain]
  have lacks : lacksSpeaker (some name) = false := by simp [lacksSpeaker, nonempty, proper]
  have hears : (st.hear t).inQuote = false := outside
  split
  next turns => simp [step, mint, leave, turns, opens, closes, lacks, hears, speaker]
  next stays => simp [step, mint, leave, stays, opens, closes, lacks, hears, speaker]

theorem speakersGiven_hear (spoken : t.IsSpokenBy name) :
    name = "-" ∨ (st.hear t).speakersGiven = true := by
  by_cases hyphen : name = "-"
  · exact .inl hyphen
  · exact .inr (by simp [hear, namesSpeaker, spoken.speaker, hyphen])

/-- The first token changes nothing. -/
theorem step_first (spoken : t.IsSpokenBy name) :
    let st : UtteranceState := { previousSpeaker? := t.speaker? }
    (st.step t).1 = { t with utterance? := some 0 } ∧ (st.step t).2.Turned name 0 := by
  intro st
  have stays : (st.hear t).changesSpeaker t = false := by
    simp [changesSpeaker, hear, st]
  have given : name = "-" ∨ (st.hear t).speakersGiven = true := speakersGiven_hear spoken
  rw [step_of_isSpokenBy rfl spoken, stays, if_neg Bool.false_ne_true]
  exact ⟨rfl, rfl, rfl, rfl, spoken.speaker, given⟩

/-- Every other token changes the speaker if it has another one than the token before. -/
theorem Turned.step (h : st.Turned name count) (spoken : t.IsSpokenBy next) :
    let count' := count + if name = next then 0 else 1
    (st.step t).1 = { t with utterance? := some count' } ∧ (st.step t).2.Turned next count' := by
  intro count'
  have given : next = "-" ∨ (st.hear t).speakersGiven = true := speakersGiven_hear spoken
  have turn : (st.hear t).changesSpeaker t = !decide (name = next) := by
    have previous : (st.hear t).previousSpeaker? = some name := h.previous
    rw [changesSpeaker, previous, spoken.speaker]
    by_cases same : name = next
    · simp [same]
    · -- of two different speakers one is no hyphen
      have heard : (st.hear t).speakersGiven = true := by
        rcases given with rfl | heard
        · rcases h.given with rfl | before
          · exact absurd rfl same
          · simp [hear, before]
        · exact heard
      simp [heard, same, Ne.symm same]
  rw [step_of_isSpokenBy h.inQuote spoken, turn]
  by_cases same : name = next
  · have stays : count' = count := by simp [count', same]
    rw [if_neg (by simp [same]), stays, h.largest, h.current, Nat.max_self]
    exact ⟨rfl, h.inQuote, h.current, rfl, h.previous.trans (congrArg some same), given⟩
  · have turns : count' = count + 1 := by simp [count', same]
    rw [if_pos (by simp [same]), turns, h.largest]
    exact ⟨rfl, h.inQuote, rfl, rfl, rfl, given⟩

end UtteranceState

namespace Document

variable {doc : Document} {pre rest : List Token} {t : Token} {name : String}

theorem speakerAt?_of_split (split : doc.tokens = pre ++ t :: rest) :
    speakerAt? doc.tokens pre.length = t.speaker? := by
  simp [speakerAt?, split]

/-- In a transcript the utterance of a token counts the changes of speaker up to it. -/
theorem step_transcript (spoken : ∀ t ∈ doc.tokens, ∃ name, t.IsSpokenBy name)
    (split : doc.tokens = pre ++ t :: rest) (here : t.speaker? = some name) :
    let count := speakerChanges doc.tokens pre.length
    ((doc.utteranceStart.after pre).step t).1 = { t with utterance? := some count } ∧
      ((doc.utteranceStart.after pre).step t).2.Turned name count := by
  induction pre using List.reverseRecOn generalizing t rest name with
  | nil =>
    obtain ⟨name', isSpoken⟩ := spoken t (by simp [split])
    obtain rfl := Option.some.inj (isSpoken.speaker.symm.trans here)
    have start : doc.utteranceStart = { previousSpeaker? := t.speaker? } := by
      rw [utteranceStart, split]
      rfl
    show (doc.utteranceStart.step t).1 = _ ∧ _
    rw [start]
    exact UtteranceState.step_first isSpoken
  | append_singleton xs u ih =>
    obtain ⟨name', isSpoken⟩ := spoken t (by simp [split])
    obtain rfl := Option.some.inj (isSpoken.speaker.symm.trans here)
    obtain ⟨before, isSpokenBefore⟩ := spoken u (by simp [split])
    have earlier : doc.tokens = xs ++ u :: t :: rest := by rw [split, List.append_assoc]; rfl
    have turned := (ih earlier isSpokenBefore.speaker).2
    have first := speakerAt?_of_split earlier
    have second := speakerAt?_of_split split
    rw [List.length_append, List.length_singleton] at second
    have counted := speakerChanges_succ doc.tokens xs.length
    rw [first, second, isSpokenBefore.speaker, here] at counted
    simp only [Option.some.injEq] at counted
    rw [List.length_append, List.length_singleton, counted, UtteranceState.after_append]
    exact turned.step isSpoken

/-- The marks of a transcript, token by token. -/
theorem getElem?_setUtterances_transcript (spoken : ∀ t ∈ doc.tokens, ∃ name, t.IsSpokenBy name)
    {place : Nat} (here : doc.tokens[place]? = some t) :
    doc.setUtterances.tokens[place]? =
      some { t with utterance? := some (speakerChanges doc.tokens place) } := by
  obtain ⟨pre, rest, split, rfl⟩ := exists_split_of_getElem? here
  obtain ⟨name, isSpoken⟩ := spoken t (List.mem_of_getElem? here)
  have marked := (step_transcript spoken split isSpoken.speaker).1
  have length := UtteranceState.length_run doc.utteranceStart pre
  rw [tokens_setUtterances, split, UtteranceState.run_append, List.getElem?_append_right (by omega),
    length, Nat.sub_self, UtteranceState.run_cons, List.getElem?_cons_zero, marked, ← split]

theorem exists_of_getElem?_setUtterances (spoken : ∀ t ∈ doc.tokens, ∃ name, t.IsSpokenBy name)
    {place : Nat} {m : Token} (found : doc.setUtterances.tokens[place]? = some m) :
    ∃ t, doc.tokens[place]? = some t ∧
      m = { t with utterance? := some (speakerChanges doc.tokens place) } := by
  have inside : place < doc.tokens.length := by
    rw [← UtteranceState.length_run doc.utteranceStart, ← tokens_setUtterances]
    exact (List.getElem?_eq_some_iff.mp found).1
  have here := List.getElem?_eq_getElem inside
  rw [getElem?_setUtterances_transcript spoken here] at found
  exact ⟨_, here, (Option.some.inj found).symm⟩

/-! ## The genre -/

theorem genreOf_eq_conversation_iff {ts : List Token}
    (ascending : ts.Pairwise fun t u => t.utterance ≤ u.utterance) :
    genreOf ts = .conversation ↔ ∃ t ∈ ts, t.utterance ≠ 0 := by
  induction ts with
  | nil => simp [genreOf]
  | cons t rest ih =>
    obtain ⟨first, ascending⟩ := List.pairwise_cons.mp ascending
    by_cases silent : t.utterance = 0
    · have next : genreOf (t :: rest) = genreOf rest := by simp [genreOf, silent]
      rw [next, ih ascending]
      simp [silent]
    · have speaks : (t :: rest).any (fun t => t.utterance == 0) = false := by
        refine List.any_eq_false.mpr fun u mem => ?_
        rcases List.mem_cons.mp mem with rfl | later
        · simpa using silent
        · have le := first u later
          simp only [beq_iff_eq]
          omega
      have spoken : (t :: rest).dropWhile (fun t => t.utterance == 0) = t :: rest :=
        List.dropWhile_cons_of_neg (by simpa using silent)
      rw [genreOf, spoken]
      dsimp only
      rw [speaks]
      exact iff_of_true rfl ⟨t, List.mem_cons_self, silent⟩

/-- A transcript is a conversation exactly if the speaker changes somewhere. -/
theorem findGenre_transcript (spoken : ∀ t ∈ doc.tokens, ∃ name, t.IsSpokenBy name) :
    doc.setUtterances.findGenre = .conversation ↔
      ∃ i, i + 1 < doc.tokens.length ∧
        speakerAt? doc.tokens i ≠ speakerAt? doc.tokens (i + 1) := by
  have ascending : doc.setUtterances.tokens.Pairwise fun t u => t.utterance ≤ u.utterance := by
    refine List.pairwise_iff_getElem.mpr fun i j hi hj lt => ?_
    obtain ⟨t, -, first⟩ :=
      exists_of_getElem?_setUtterances spoken (List.getElem?_eq_getElem hi)
    obtain ⟨u, -, second⟩ :=
      exists_of_getElem?_setUtterances spoken (List.getElem?_eq_getElem hj)
    rw [first, second]
    exact speakerChanges_mono doc.tokens (Nat.le_of_lt lt)
  rw [findGenre, genreOf_eq_conversation_iff ascending]
  constructor
  · rintro ⟨m, mem, turned⟩
    obtain ⟨place, found⟩ := List.getElem?_of_mem mem
    obtain ⟨t, here, rfl⟩ := exists_of_getElem?_setUtterances spoken found
    obtain ⟨i, before, changes⟩ := (speakerChanges_ne_zero_iff doc.tokens place).mp turned
    have inside := (List.getElem?_eq_some_iff.mp here).1
    exact ⟨i, by omega, changes⟩
  · rintro ⟨i, inside, changes⟩
    have found := getElem?_setUtterances_transcript spoken (List.getElem?_eq_getElem inside)
    refine ⟨_, List.mem_of_getElem? found, ?_⟩
    exact (speakerChanges_ne_zero_iff doc.tokens (i + 1)).mpr ⟨i, by omega, changes⟩

/-! ## Names and mentions -/

/-- The mention that the text of a speaker belongs to, if it is a real name. -/
def namesake? (doc : Document) (name : String) : Option Mention :=
  if (SpeakerInfo.ofSpeaker name).hasRealName then doc.mentionOfName? (.ofSpeaker name) else none

/-- The text that stands for a speaker in the end: the id of the mention that the name belongs to,
or else the name itself. -/
def reconciledName (doc : Document) (name : String) : String :=
  ((doc.namesake? name).map fun m => toString m.id).getD name

/-- A speaker who is described by what his text says is converted to the mention of that name. -/
theorem lookup_nameConversions (described : doc.speakerInfo.find? name = some (.ofSpeaker name)) :
    doc.nameConversions.lookup name = (doc.namesake? name).map Mention.id := by
  refine Option.ext fun id => ?_
  rw [lookup_nameConversions_iff, mem_nameConversions_iff, described, namesake?]
  split
  next real => simp [real]
  next unreal => simp [unreal]

end Document

/-- A mention before it is known in which utterance it is. -/
def Mention.unheard (m : Mention) : Mention := { m with utterance := 0 }

theorem Table.map_values_modify {κ α β : Type} [KeyOrder κ] [DecidableEq κ] (t : Table κ α) (k : κ)
    {f : α → α} {g : α → β} (keeps : ∀ v, g (f v) = g v) :
    (t.modify k f).values.map g = t.values.map g := by
  rw [values, values, modify, mapEntries, List.map_map, List.map_map, List.map_map]
  refine List.map_congr_left fun entry _ => ?_
  simp only [Function.comp_apply]
  split
  · exact keeps entry.2
  · rfl

namespace Document

variable {doc d : Document}

theorem map_unheard_markDiscourse (doc : Document) :
    doc.markDiscourse.mentions.values.map Mention.unheard =
      doc.mentions.values.map Mention.unheard := by
  have heard : ∀ (ms : List Mention) (f : Mention → Mention → Mention) (t : Table MentionId Mention),
      (∀ m m', (f m m').unheard = m'.unheard) →
        (ms.foldl (fun t m => t.modify m.id (f m)) t).values.map Mention.unheard =
          t.values.map Mention.unheard := by
    intro ms f t keeps
    induction ms generalizing t with
    | nil => rfl
    | cons m rest ih => rw [List.foldl_cons, ih, Table.map_values_modify t m.id (keeps m)]
  have marked := doc.uttered.markHeads_eq fun head? m =>
    { m with utterance := (head?.map Token.utterance).getD 0 }
  have mentions := congrArg Document.mentions marked
  show ((doc.uttered.markHeads _).mentions.values.map Mention.unheard) = _
  rw [mentions, ← doc.sameGround_uttered.2.1]
  exact heard _ (fun m m' =>
    { m' with utterance := ((doc.uttered.headToken? m).map Token.utterance).getD 0 }) _
    fun _ _ => rfl

/-- A name belongs to the same mention, whatever is written to the mentions but their texts and
types. -/
theorem map_mentionOfName? {g : Mention → Mention} (text : ∀ m, (g m).text = m.text)
    (type : ∀ m, (g m).type = m.type)
    (same : d.mentions.values.map g = doc.mentions.values.map g) (info : SpeakerInfo) :
    (d.mentionOfName? info).map g = (doc.mentionOfName? info).map g := by
  have strictly (m : Mention) : (g m).matchesStrictly info = m.matchesStrictly info := by
    rw [Mention.matchesStrictly, text, Mention.matchesStrictly]
  have loosely (m : Mention) : (g m).matchesLoosely info = m.matchesLoosely info := by
    rw [Mention.matchesLoosely, text, type, Mention.matchesLoosely]
  have search (p : Mention → Bool) (blind : ∀ m, p (g m) = p m) (d : Document) :
      (d.mentions.values.find? p).map g = (d.mentions.values.map g).find? p := by
    rw [List.find?_map, show p ∘ g = p from funext blind]
  simp only [mentionOfName?, Option.orElse_eq_or, Option.orElse_eq_orElse, Option.map_or]
  rw [search _ strictly, search _ loosely, search _ strictly, search _ loosely, same]

theorem map_namesake? {g : Mention → Mention} (text : ∀ m, (g m).text = m.text)
    (type : ∀ m, (g m).type = m.type)
    (same : d.mentions.values.map g = doc.mentions.values.map g) (name : String) :
    (d.namesake? name).map g = (doc.namesake? name).map g := by
  rw [namesake?, namesake?]
  split
  · exact map_mentionOfName? text type same _
  · rfl

/-- So the same text stands for a speaker in the end, if the mentions keep their ids. -/
theorem reconciledName_eq {g : Mention → Mention} (id : ∀ m, (g m).id = m.id)
    (text : ∀ m, (g m).text = m.text) (type : ∀ m, (g m).type = m.type)
    (same : d.mentions.values.map g = doc.mentions.values.map g) (name : String) :
    d.reconciledName name = doc.reconciledName name := by
  have ids (d : Document) : d.reconciledName name =
      (((d.namesake? name).map g).map fun m => toString m.id).getD name := by
    rw [Option.map_map, reconciledName]
    exact congrArg (fun text? : Option String => text?.getD name)
      (congrArg (Option.map · _) (funext fun m => by rw [Function.comp_apply, id]))
  rw [ids, map_namesake? text type same, ids]

/-! ## The whole analysis -/

theorem find?_reconcileSpeakers {utterance : Nat} {name : String}
    (found : d.speakers.find? utterance = some name)
    (described : d.speakerInfo.find? name = some (.ofSpeaker name)) :
    d.reconcileSpeakers.speakers.find? utterance = some (d.reconciledName name) := by
  rw [reconcileSpeakers, Table.mapValues, Table.find?_mapEntries, found, Option.map_some,
    lookup_nameConversions described, Option.map_map, reconciledName]
  rfl

/-- Reconciling speakers with mentions gives no speaker to an utterance that had none. -/
theorem exists_of_find?_reconcileSpeakers {utterance : Nat} {s : String}
    (found : d.reconcileSpeakers.speakers.find? utterance = some s) :
    ∃ name, d.speakers.find? utterance = some name := by
  rw [reconcileSpeakers, Table.mapValues, Table.find?_mapEntries] at found
  obtain ⟨name, before, -⟩ := Option.map_eq_some_iff.mp found
  exact ⟨name, before⟩

/-- In a marked document the speaker of an utterance is that of one of its tokens. -/
theorem exists_of_find?_findSpeakers {lex : Lexicon} (marked : d.marked = true)
    (unspoken : d.speakers = {}) {utterance : Nat} {name : String}
    (found : (d.findSpeakers lex).speakers.find? utterance = some name) :
    ∃ t ∈ d.tokens, t.utterance = utterance ∧ t.speaker?.getD "" = name := by
  rw [findSpeakers, if_pos marked] at found
  rcases Table.find?_foldl_insertNew Prod.fst Prod.snd found with before | ⟨entry, mem, rfl, rfl⟩
  · rw [unspoken, Table.find?_empty] at before
    cases before
  · have first := (Table.mem_entries_iff _ _ _).mp mem
    rcases Table.find?_foldl_insertNew Token.utterance _ first with before | found
    · rw [Table.find?_empty] at before
      cases before
    · exact found

/-- The speaker found for an utterance is reconciled by what his text says. -/
theorem find?_reconciled (lex : Lexicon) (undescribed : d.speakerInfo = {}) {utterance : Nat}
    {name : String} (found : (d.findSpeakers lex).speakers.find? utterance = some name) :
    (d.findSpeakers lex).describeSpeakers.reconcileSpeakers.speakers.find? utterance =
      some (d.reconciledName name) := by
  obtain ⟨speakers, eq⟩ := d.findSpeakers_eq lex
  have info : (d.findSpeakers lex).speakerInfo = {} := by rw [eq, undescribed]
  have mentions : (d.findSpeakers lex).describeSpeakers.mentions = d.mentions := by
    rw [eq]
    rfl
  obtain ⟨about, described⟩ := Option.isSome_iff_exists.mp
    ((d.findSpeakers lex).describeSpeakers_known _ _ found)
  obtain rfl := describeSpeakers_plain info described
  have found : (d.findSpeakers lex).describeSpeakers.speakers.find? utterance = some _ := found
  rw [find?_reconcileSpeakers found described]
  exact congrArg some (reconciledName_eq (g := fun m => m) (fun _ => rfl) (fun _ => rfl) (fun _ => rfl)
    (by rw [mentions]) _)

/-- The speakers of a marked document after the reconciliation, each read off a token of its
utterance. -/
theorem exists_of_find?_reconciled (lex : Lexicon) (marked : d.marked = true)
    (unspoken : d.speakers = {}) (undescribed : d.speakerInfo = {}) {t : Token}
    (mem : t ∈ d.tokens) :
    ∃ u ∈ d.tokens, u.utterance = t.utterance ∧
      (d.findSpeakers lex).describeSpeakers.reconcileSpeakers.speakers.find? t.utterance =
        some (d.reconciledName (u.speaker?.getD "")) := by
  obtain ⟨name, found⟩ := Option.isSome_iff_exists.mp (contains_findSpeakers lex mem)
  obtain ⟨u, listed, same, rfl⟩ := exists_of_find?_findSpeakers marked unspoken found
  exact ⟨u, listed, same, find?_reconciled lex undescribed found⟩

theorem markDiscourse_fields (doc : Document) :
    doc.markDiscourse.tokens = doc.uttered.tokens ∧
      doc.markDiscourse.speakers = doc.speakers ∧
      doc.markDiscourse.genre = doc.uttered.findGenre := by
  obtain ⟨mentions, maxUtterance, speakersGiven, marked⟩ := doc.markDiscourse_eq
  rw [marked]
  exact ⟨rfl, rfl, rfl⟩

/-- The speakers of the utterances once they are reconciled with mentions. -/
def settledSpeakers (doc : Document) (lex : Lexicon) : Table Nat String :=
  ((doc.markDiscourse.findSpeakers lex).describeSpeakers.reconcileSpeakers).speakers

/-- A token with the speaker of its utterance. -/
def respoken (speakers : Table Nat String) (t : Token) : Token :=
  match speakers.find? t.utterance with
  | some speaker => { t with speaker? := some speaker }
  | none => t

theorem utterance_respoken (speakers : Table Nat String) :
    Token.utterance ∘ respoken speakers = Token.utterance := by
  funext t
  rw [Function.comp_apply, respoken]
  split <;> rfl

theorem findSpeakerPairs_markSpeakers_fields (d : Document) :
    d.markSpeakers.findSpeakerPairs.genre = d.genre ∧
      d.markSpeakers.findSpeakerPairs.tokens = d.tokens.map (respoken d.speakers) := by
  obtain ⟨pairs, last⟩ := d.markSpeakers.findSpeakerPairs_eq
  rw [last]
  exact ⟨rfl, tokens_mapTokens d (respoken d.speakers)⟩

theorem processDiscourse_fields (doc : Document) (lex : Lexicon) :
    (doc.processDiscourse lex).genre = doc.markDiscourse.genre ∧
      (doc.processDiscourse lex).tokens =
        doc.markDiscourse.tokens.map (respoken (doc.settledSpeakers lex)) := by
  obtain ⟨genre, tokens⟩ := findSpeakerPairs_markSpeakers_fields
    (doc.markDiscourse.findSpeakers lex).describeSpeakers.reconcileSpeakers
  have before (d : Document) :
      (d.findSpeakers lex).describeSpeakers.reconcileSpeakers.genre = d.genre ∧
        (d.findSpeakers lex).describeSpeakers.reconcileSpeakers.tokens = d.tokens := by
    obtain ⟨speakers, found⟩ := d.findSpeakers_eq lex
    rw [found]
    exact ⟨rfl, rfl⟩
  obtain ⟨genre', tokens'⟩ := before doc.markDiscourse
  rw [processDiscourse, genre, tokens, genre', tokens', settledSpeakers]
  exact ⟨rfl, rfl⟩

/-- A document `d` has the turns that the tokens of `doc` came with. -/
structure KeepsTurns (doc d : Document) : Prop where
  /-- It is a conversation exactly if the speaker changes somewhere. -/
  genre : d.genre = .conversation ↔
    ∃ i, i + 1 < doc.tokens.length ∧ speakerAt? doc.tokens i ≠ speakerAt? doc.tokens (i + 1)
  /-- A token is in the utterance that counts the changes of speaker up to it, and is spoken by the
  speaker it came with or by the mention that the name belongs to. -/
  turns : ∀ place t name, doc.tokens[place]? = some t → t.speaker? = some name →
    ∃ m, d.tokens[place]? = some m ∧ m.utterance? = some (speakerChanges doc.tokens place) ∧
      m.speaker? = some (doc.reconciledName name)

/-- The analysis of a transcript keeps its turns. -/
theorem processDiscourse_transcript (doc : Document) (lex : Lexicon) (marked : doc.marked = true)
    (unspoken : doc.speakers = {}) (undescribed : doc.speakerInfo = {})
    (spoken : ∀ t ∈ doc.tokens, ∃ name, t.IsSpokenBy name) :
    doc.KeepsTurns (doc.processDiscourse lex) := by
  have uttered : doc.uttered = doc.setUtterances := by rw [Document.uttered, if_pos marked]
  obtain ⟨tokens, speakers, genre⟩ := doc.markDiscourse_fields
  obtain ⟨marking, -, sameInfo⟩ := doc.markDiscourse_cases
  obtain ⟨genre', final⟩ := doc.processDiscourse_fields lex
  rw [uttered] at tokens genre
  refine ⟨?_, fun place t name here speaker => ?_⟩
  · rw [genre', genre]
    exact findGenre_transcript spoken
  -- the token as the machine leaves it
  have counted := getElem?_setUtterances_transcript spoken here
  rw [← tokens] at counted
  obtain ⟨u, listed, same, spokenBy⟩ := exists_of_find?_reconciled lex
    (marking.marked.trans marked) (speakers.trans unspoken) (sameInfo.trans undescribed)
    (List.mem_of_getElem? counted)
  have sameName : u.speaker? = some name := by
    obtain ⟨j, found⟩ := List.getElem?_of_mem listed
    rw [tokens] at found
    obtain ⟨v, here', rfl⟩ := exists_of_getElem?_setUtterances spoken found
    have agree := speakerAt?_eq_of_speakerChanges_eq doc.tokens
      (i := j) (j := place) same
    rw [speakerAt?, speakerAt?, here', here] at agree
    exact agree.trans speaker
  rw [sameName, Option.getD_some, reconciledName_eq (g := Mention.unheard) (fun _ => rfl)
    (fun _ => rfl) (fun _ => rfl) doc.map_unheard_markDiscourse] at spokenBy
  refine ⟨_, by rw [final, List.getElem?_map, counted, Option.map_some], ?_⟩
  rw [respoken, settledSpeakers, spokenBy]
  exact ⟨rfl, rfl⟩

/-- Two speakers are found among the mentions, one of them by a part of his name; a third is not. -/
theorem processDiscourse_transcript_three_speakers :
    let lex : Lexicon := ⟨{}, {}, {}, {}, {}⟩
    let sentences : List Sentence :=
      [{ tokens := [spoken "Joe" "Joe Smith", spoken "speaks" "Joe Smith"] },
        { tokens := [spoken "Ann" "Ann"] }, { tokens := [spoken "well" "Zoe"] },
        { tokens := [spoken "so" "Joe Smith"] }]
    let read := { ofSentences "" sentences with marked := true }
    let joe : Mention :=
      { id := 0, sentence := 0, start := 0, stop := 1, head := 0, text := "Joe", type := .proper }
    let ann : Mention := { id := 1, sentence := 1, start := 0, stop := 1, head := 0, text := "Ann" }
    let doc := (read.addMention joe).addMention ann
    doc.marked = true ∧ doc.speakers = {} ∧ doc.speakerInfo = {} ∧
      (∀ t ∈ doc.tokens, ∃ name, t.IsSpokenBy name) ∧
      (doc.processDiscourse lex).tokens.map (fun t => (t.utterance, t.speaker?)) =
        [(0, some "0"), (0, some "0"), (1, some "1"), (2, some "Zoe"), (3, some "0")] ∧
      doc.KeepsTurns (doc.processDiscourse lex) := by
  intro lex sentences read joe ann doc
  have isSpoken : ∀ t ∈ doc.tokens, ∃ name, t.IsSpokenBy name := by
    have each : ∀ t ∈ doc.tokens, isGlyph t.word = false ∧ t.speaker?.isSome = true ∧
        t.speaker?.getD "" ≠ "" ∧ isPlaceholderSpeaker (t.speaker?.getD "") = false := by
      decide +kernel
    intro t mem
    obtain ⟨plain, given, nonempty, proper⟩ := each t mem
    obtain ⟨name, speaker⟩ := Option.isSome_iff_exists.mp given
    rw [speaker] at nonempty proper
    exact ⟨name, plain, speaker, nonempty, proper⟩
  exact ⟨rfl, rfl, rfl, isSpoken, by decide +kernel,
    doc.processDiscourse_transcript lex rfl rfl rfl isSpoken⟩

end Document

end Discourse
