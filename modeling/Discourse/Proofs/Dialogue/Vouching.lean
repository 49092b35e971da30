import Discourse.Proofs.Dialogue.Narration
import Discourse.Proofs.Dialogue.Transcript
/-!
# Speakers of an unmarked article

A speaker is a text: the id of a mention written out, a name, or the placeholder of an utterance.
Nothing marks which of the three it is, so reading ids back out of speakers relies on the texts
being apart.  A written id is read back as itself (`eq_of_decimalValue?_toString`), and neither it
nor a placeholder is anybody's name (`hasRealName_toString`, `hasRealName_placeholderSpeaker`), so
that reconciling leaves both alone.

In an unmarked article the tokens come without speakers, and what is known of an utterance is the
subject that narration names for it or else its placeholder (`findSpeakers_cases`).  Hence the pairs
of mentions and speakers are those subjects' texts, reconciled and read as ids
(`mem_speakerPairs_iff`).
-/

namespace Discourse

/-! ## Texts that stand for speakers -/

/-- The text of an id is read as that id, if it is read at all. -/
theorem eq_of_decimalValue?_toString {n value : Nat}
    (read : decimalValue? (toString n) = some value) : value = n := by
  have digits : (toString n).toList = Nat.toDigits 10 n := Nat.toList_repr
  have unsigned : ∀ rest, (toString n).toList ≠ '+' :: rest := by
    intro rest signed
    have digit := Nat.isDigit_of_mem_toDigits (by decide) (by decide)
      (digits ▸ signed ▸ List.mem_cons_self : '+' ∈ Nat.toDigits 10 n)
    cases digit
  rw [decimalValue?] at read
  split at read
  next rest signed => exact absurd signed (unsigned rest)
  next =>
    split at read
    next => cases read
    next =>
      obtain ⟨-, same⟩ := Option.ite_none_right_eq_some.mp read
      rw [digitsValue_toString] at same
      exact (Option.some.inj same).symm

theorem toList_placeholderSpeaker (utterance : Nat) :
    (placeholderSpeaker utterance).toList = 'P' :: 'E' :: 'R' :: (toString utterance).toList := by
  rw [placeholderSpeaker, String.toList_append]
  rfl

theorem isDecimalId_placeholderSpeaker (utterance : Nat) :
    isDecimalId (placeholderSpeaker utterance) = false := by
  rw [isDecimalId, toList_placeholderSpeaker]
  rfl

/-- A placeholder is nobody's name. -/
theorem hasRealName_placeholderSpeaker (utterance : Nat) :
    (SpeakerInfo.ofSpeaker (placeholderSpeaker utterance)).hasRealName = false := by
  have plain : ∀ c ∈ (placeholderSpeaker utterance).toList, IsPlainChar c := by
    rw [toList_placeholderSpeaker]
    refine List.forall_mem_cons.mpr ⟨by decide, List.forall_mem_cons.mpr ⟨by decide,
      List.forall_mem_cons.mpr ⟨by decide, ?_⟩⟩⟩
    exact isPlainChar_of_isDecimalId (isDecimalId_toString utterance)
  have placeholder : isPlaceholderSpeaker (placeholderSpeaker utterance) = true := by
    have rest : Text.dropStart? "PER" (placeholderSpeaker utterance) = some (toString utterance) := by
      rw [Text.dropStart?, toList_placeholderSpeaker]
      exact congrArg some String.ofList_toList
    rw [isPlaceholderSpeaker, rest]
    exact isDecimalId_toString utterance
  rw [SpeakerInfo.hasRealName, name_ofSpeaker_of_plain plain, placeholder, Bool.not_true,
    Bool.and_false]

theorem hasRealName_toString (id : MentionId) :
    (SpeakerInfo.ofSpeaker (toString id)).hasRealName = false := by
  refine Bool.eq_false_iff.mpr fun real => ?_
  have word := isDecimalId_of_hasRealName real
  rw [isDecimalId_toString] at word
  cases word

/-- What is in a table is not changed by new values. -/
theorem Table.find?_foldl_insertNew_of_some {α β κ : Type} [KeyOrder κ] [DecidableEq κ]
    (key : β → κ) (value : β → α) (bs : List β) {t : Table κ α} {k : κ} {v : α}
    (found : t.find? k = some v) :
    (bs.foldl (fun t b => t.insertNew (key b) (value b)) t).find? k = some v := by
  refine List.foldlRecOn (motive := fun t : Table κ α => t.find? k = some v) bs _ found ?_
  intro t found b _
  rw [Table.insertNew]
  split
  next => exact found
  next new =>
    have other : k ≠ key b := by
      rintro rfl
      exact new (Option.isSome_of_eq_some found)
    rw [Table.find?_insert_of_ne t (value b) other]
    exact found

/-- Tokens that came without speakers get placeholders of their utterances. -/
theorem UtteranceState.speaker?_run (st : UtteranceState) {ts : List Token}
    (silent : ∀ t ∈ ts, t.speaker? = none) :
    ∀ m ∈ (st.run ts).1, m.speaker? = some (placeholderSpeaker m.utterance) := by
  induction ts generalizing st with
  | nil => exact fun m mem => absurd mem List.not_mem_nil
  | cons t rest ih =>
    obtain ⟨none, silent⟩ := List.forall_mem_cons.mp silent
    rw [run_cons]
    refine List.forall_mem_cons.mpr ⟨?_, ih _ silent⟩
    simp [step, none, lacksSpeaker, Token.utterance]

namespace Document

variable {doc d : Document} {lex : Lexicon}

theorem reconciledName_of_unreal {name : String}
    (unreal : (SpeakerInfo.ofSpeaker name).hasRealName = false) :
    doc.reconciledName name = name := by
  rw [reconciledName, namesake?, unreal]
  rfl

/-! ## The speakers of the utterances -/

/-- Nobody is known to speak yet, as when a document is made, and nothing that comes with the tokens
says who does. -/
structure Untold (doc : Document) : Prop where
  marked : doc.marked = false
  speakers : doc.speakers = {}
  speakerInfo : doc.speakerInfo = {}
  speakerPairs : doc.speakerPairs = {}

theorem untold_ofSentences (id : String) (sentences : List Sentence) :
    (ofSentences id sentences).Untold :=
  ⟨rfl, rfl, rfl, rfl⟩

/-- Every token has the placeholder of its utterance for a speaker. -/
def Hushed (doc : Document) : Prop :=
  ∀ t ∈ doc.tokens, t.speaker? = some (placeholderSpeaker t.utterance)

theorem hushed_markDiscourse (unmarked : doc.marked = false) : doc.markDiscourse.Hushed := by
  rw [Hushed, doc.markDiscourse_fields.1, uttered, unmarked, if_neg Bool.false_ne_true,
    tokens_setUtterances]
  exact UtteranceState.speaker?_run _ doc.silent_dropMarks

theorem findSpeakers_of_article (unmarked : doc.marked = false) (article : doc.genre = .article)
    (lex : Lexicon) :
    (doc.findSpeakers lex).speakers = doc.firstSpeakers.entries.foldl
      (fun t entry => t.insertNew entry.1 entry.2) (doc.findSpeakersInArticle lex).speakers := by
  rw [findSpeakers, unmarked, if_neg Bool.false_ne_true, article]
  rfl

/-- The subject that narration names for an utterance is its speaker. -/
theorem find?_findSpeakers_of_subject (unmarked : doc.marked = false)
    (article : doc.genre = .article) {utterance : Nat} {p : Position} {name : String}
    (named : doc.narratedSubject? lex utterance = some p)
    (text : doc.subjectText? p = some name) :
    (doc.findSpeakers lex).speakers.find? utterance = some name := by
  rw [findSpeakers_of_article unmarked article]
  refine Table.find?_foldl_insertNew_of_some Prod.fst Prod.snd _ ?_
  rw [find?_findSpeakersInArticle, named, Option.bind_some, text, Option.some_or]

/-- Whoever is found to speak an utterance is the subject that narration names, or a placeholder. -/
theorem findSpeakers_cases (unmarked : doc.marked = false) (article : doc.genre = .article)
    (unspoken : doc.speakers = {}) (hushed : doc.Hushed) {utterance : Nat} {name : String}
    (found : (doc.findSpeakers lex).speakers.find? utterance = some name) :
    (∃ p, doc.narratedSubject? lex utterance = some p ∧ doc.subjectText? p = some name) ∨
      name = placeholderSpeaker utterance := by
  rw [findSpeakers_of_article unmarked article] at found
  rcases Table.find?_foldl_insertNew Prod.fst Prod.snd found with before | ⟨entry, mem, rfl, rfl⟩
  · rw [find?_findSpeakersInArticle, unspoken, Table.find?_empty, Option.or_none] at before
    exact .inl (Option.bind_eq_some_iff.mp before)
  · have first := (Table.mem_entries_iff _ _ _).mp mem
    rcases Table.find?_foldl_insertNew Token.utterance _ first with before | ⟨t, mem, same, text⟩
    · rw [Table.find?_empty] at before
      cases before
    · rw [hushed t mem, same] at text
      exact .inr text.symm

/-- In an unmarked article a mention is paired with the mention whose id stands in the end for the
subject that narration names for its utterance. -/
theorem mem_speakerPairs_iff (untold : doc.Untold)
    (article : doc.markDiscourse.genre = .article) (a b : MentionId) :
    (a, b) ∈ (doc.processDiscourse lex).speakerPairs.toList ↔
      ∃ m ∈ doc.markDiscourse.mentions.values, m.id = a ∧
        ∃ t p name, doc.markDiscourse.headToken? m = some t ∧
          doc.markDiscourse.narratedSubject? lex t.utterance = some p ∧
          doc.markDiscourse.subjectText? p = some name ∧
          isDecimalId (doc.markDiscourse.reconciledName name) = true ∧
          decimalValue? (doc.markDiscourse.reconciledName name) = some b ∧
          doc.markDiscourse.mentions.contains b = true := by
  obtain ⟨marking, -, sameInfo⟩ := doc.markDiscourse_cases
  obtain ⟨-, unspoken, -⟩ := doc.markDiscourse_fields
  have unmarked := marking.marked.trans untold.marked
  have hushed := hushed_markDiscourse untold.marked
  have undescribed := sameInfo.trans untold.speakerInfo
  have unspoken := unspoken.trans untold.speakers
  have unpaired := marking.speakerPairs.trans untold.speakerPairs
  rw [processDiscourse]
  generalize doc.markDiscourse = y at *
  obtain ⟨ground, text, mentions, spoken, -⟩ := reconciled_cases undescribed lex rfl
  have settled : ∀ {utterance name},
      (y.findSpeakers lex).speakers.find? utterance = some name →
        (y.findSpeakers lex).describeSpeakers.reconcileSpeakers.speakers.find? utterance =
          some (y.reconciledName name) := find?_reconciled lex undescribed
  have renamed : ∀ utterance s,
      (y.findSpeakers lex).describeSpeakers.reconcileSpeakers.speakers.find? utterance = some s →
        ∃ name, (y.findSpeakers lex).speakers.find? utterance = some name :=
    fun _ _ => exists_of_find?_reconcileSpeakers
  generalize (y.findSpeakers lex).describeSpeakers.reconcileSpeakers = r at *
  have ids : ¬(r.marked = true ∧ r.fromColumns = false) := by
    rw [ground.marked, unmarked]
    exact fun both => Bool.false_ne_true both.1
  have heads : ∀ m, (r.markSpeakers.headToken? m).map Token.utterance =
      (y.headToken? m).map Token.utterance := by
    intro m
    rw [utterance_markSpeakers, headToken?, tokenAt?, text, ← tokenAt?, ← headToken?]
  rw [mem_findSpeakerPairs_markSpeakers_iff spoken (ground.speakerPairs.trans unpaired) ids,
    mentions]
  refine exists_congr fun m => and_congr_right fun _ => and_congr_right fun _ => ?_
  constructor
  · rintro ⟨t, s, head, found, decimal, value, known⟩
    obtain ⟨t', head', same⟩ := Option.map_eq_some_iff.mp
      ((heads m).symm.trans (congrArg (Option.map Token.utterance) head))
    obtain ⟨name, named⟩ := renamed _ s found
    cases found.symm.trans (settled named)
    -- A placeholder outlives the reconciliation and is no number, so a subject was found.
    rcases findSpeakers_cases unmarked article unspoken hushed named with
      ⟨p, subject, text⟩ | rfl
    · exact ⟨t', p, name, head', same ▸ subject, text, decimal, value, known⟩
    · rw [reconciledName_of_unreal (hasRealName_placeholderSpeaker _),
        isDecimalId_placeholderSpeaker] at decimal
      cases decimal
  · rintro ⟨t, p, name, head, subject, text, decimal, value, known⟩
    obtain ⟨t', head', same⟩ := Option.map_eq_some_iff.mp
      ((heads m).trans (congrArg (Option.map Token.utterance) head))
    have named := find?_findSpeakers_of_subject unmarked article subject text
    exact ⟨t', _, head', same ▸ settled named, decimal, value, known⟩

end Document

end Discourse
