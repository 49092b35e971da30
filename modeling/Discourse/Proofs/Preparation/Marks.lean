import Discourse.Attribution.Basic
import Discourse.Proofs.Dialogue.Transcript
import Discourse.Proofs.Preparation.Unseen
/-!
# Marks that came with the tokens

The speakers and utterances that came with the tokens of an unmarked document are taken away before
anybody reads them, so that they do not matter for the preparation nor for the attribution
(`prepareAndAttribute_eq_of_dropMarks_eq`).

Of the marks of a marked document the speakers are kept and read.  The utterances are neither: every
token gets the utterance that the machine finds from words and speakers, and an index that came with
the token is kept only where it is the same one (`prepared_renumbered`).
-/

namespace Discourse

/-- The token without the marks of the discourse. -/
def Token.unmarked (t : Token) : Token := { t with speaker? := none, utterance? := none }

/-- The token without its utterance. -/
def Token.unnumbered (t : Token) : Token := { t with utterance? := none }

theorem Token.unseen_unmarked : Token.Unseen Token.unmarked :=
  ⟨fun _ => rfl, fun _ => rfl, fun _ => rfl, fun _ => rfl, fun _ => rfl, fun _ _ => rfl⟩

theorem Token.unseen_unnumbered : Token.Unseen Token.unnumbered :=
  ⟨fun _ => rfl, fun _ => rfl, fun _ => rfl, fun _ => rfl, fun _ => rfl, fun _ _ => rfl⟩

/-! ## Unmarked documents -/

namespace Document

variable {doc : Document}

theorem processDiscourse_unmarked (lex : Lexicon) (unmarked : doc.marked = false) :
    (doc.mapTokens Token.unmarked).processDiscourse lex = doc.processDiscourse lex := by
  have dropped : (doc.mapTokens Token.unmarked).dropMarks = doc.dropMarks :=
    doc.mapTokens_mapTokens Token.unmarked Token.unmarked
  have marks : (doc.mapTokens Token.unmarked).markDiscourse = doc.markDiscourse := by
    have still : (doc.mapTokens Token.unmarked).marked = doc.marked := rfl
    rw [markDiscourse, markDiscourse, still, unmarked, if_neg Bool.false_ne_true,
      if_neg Bool.false_ne_true, dropped]
  rw [processDiscourse, marks, processDiscourse]

theorem prepared_dropMarks (unmarked : doc.marked = false) (lex : Lexicon)
    (settings : PreparationSettings) (raw : RawMentions) :
    doc.dropMarks.prepared lex settings raw = doc.prepared lex settings raw :=
  doc.prepared_mapTokens Token.unseen_unmarked
    (fun _ same => processDiscourse_unmarked lex (same.trans unmarked)) settings raw

/-- A document prepared and attributed, with the counts of both, or the reason why the work on it
has stopped. -/
def prepareAndAttribute {S : Type} [QuoteScorer S] (doc : Document) (lex : Lexicon)
    (settings : PreparationSettings) (raw : RawMentions) (attribution : AttributionSettings)
    (scorer? : Option S) : Except Stop (Document × PreparationSummary × AttributionSummary) := do
  let (prepared, counts) ← doc.prepared lex settings raw
  let (final, summary) ← prepared.attributeQuotes lex attribution scorer?
  return (final, counts, summary)

/-- Unmarked documents that differ in the speakers and utterances of their tokens alone end as the
same document, or stop for the same reason. -/
theorem prepareAndAttribute_eq_of_dropMarks_eq {S : Type} [QuoteScorer S] (doc doc' : Document)
    (unmarked : doc.marked = false) (same : doc.dropMarks = doc'.dropMarks) (lex : Lexicon)
    (settings : PreparationSettings) (raw : RawMentions) (attribution : AttributionSettings)
    (scorer? : Option S) :
    doc.prepareAndAttribute lex settings raw attribution scorer? =
      doc'.prepareAndAttribute lex settings raw attribution scorer? := by
  have unmarked' : doc'.marked = false := (congrArg Document.marked same).symm.trans unmarked
  rw [prepareAndAttribute, ← prepared_dropMarks unmarked, same, prepared_dropMarks unmarked',
    prepareAndAttribute]

/-- Marks that say otherwise than the glyphs make no difference. -/
theorem prepareAndAttribute_eq_of_dropMarks_eq_quoted :
    let lex : Lexicon := ⟨{}, {}, {}, {}, {}⟩
    let words := ["``", "hi", "''", "he", "said"]
    let doc := ofSentences "" [{ tokens := words.map fun word => Token.ofWord word "PRP" }]
    let doc' := ofSentences "" [{ tokens := words.map fun word =>
      { Token.ofWord word "PRP" with speaker? := some "Ann", utterance? := some 7 } }]
    doc.marked = false ∧ doc.dropMarks = doc'.dropMarks ∧ doc.tokens ≠ doc'.tokens ∧
      doc.prepareAndAttribute lex {} ⟨[[]], none⟩ .default (none : Option Scorer) =
        doc'.prepareAndAttribute lex {} ⟨[[]], none⟩ .default (none : Option Scorer) ∧
      (doc'.prepareAndAttribute lex {} ⟨[[]], none⟩ .default (none : Option Scorer)).map
          (fun result => result.1.tokens.map Token.utterance?) =
        .ok [some 0, some 1, some 0, some 0, some 0] := by
  intro lex words doc doc'
  have same : doc.dropMarks = doc'.dropMarks := rfl
  refine ⟨rfl, same, by decide +kernel, ?_, by decide +kernel⟩
  exact prepareAndAttribute_eq_of_dropMarks_eq doc doc' rfl same lex {} _ .default none

end Document

/-! ## Marked documents -/

/-- What the machine reads of a token. -/
def Token.bare (t : Token) : Token :=
  { word := t.word, baseForm := "", pos := "", speaker? := t.speaker? }

/-- The utterance of a token of a row, if it has one. -/
def utteranceAt? (ts : List Token) (place : Nat) : Option Nat := ts[place]?.bind Token.utterance?

theorem utteranceAt?_eq_of_map_eq {ts us : List Token}
    (same : ts.map Token.utterance? = us.map Token.utterance?) (place : Nat) :
    utteranceAt? ts place = utteranceAt? us place := by
  have each (ts : List Token) :
      utteranceAt? ts place = ((ts.map Token.utterance?)[place]?).bind id := by
    rw [List.getElem?_map, Option.bind_map]
    rfl
  rw [each, same, each]

theorem firstSpeaker?_map {f : Token → Token} (keeps : ∀ t, (f t).speaker? = t.speaker?)
    (ts : List Token) :
    (ts.map f).head?.bind Token.speaker? = ts.head?.bind Token.speaker? := by
  rw [List.head?_map, Option.bind_map]
  exact congrArg ts.head?.bind (funext keeps)

namespace UtteranceState

variable (st : UtteranceState) (ts : List Token)

/-- The machine numbers by words and speakers alone. -/
theorem map_utterance?_run_bare :
    (st.run (ts.map Token.bare)).1.map Token.utterance? = (st.run ts).1.map Token.utterance? := by
  induction ts generalizing st with
  | nil => rfl
  | cons t rest ih => exact congrArg ((st.step t).1.utterance? :: ·) (ih (st.step t).2)

theorem run_unnumbered : st.run (ts.map Token.unnumbered) = st.run ts := by
  induction ts generalizing st with
  | nil => rfl
  | cons t rest ih =>
    have same : st.step t.unnumbered = st.step t := rfl
    rw [List.map_cons, run_cons, same, ih, run_cons]

end UtteranceState

namespace Document

variable {doc d : Document}

/-- The document without the utterances that came with its tokens. -/
def dropUtterances (doc : Document) : Document := doc.mapTokens Token.unnumbered

theorem setUtterances_dropUtterances (doc : Document) :
    doc.dropUtterances.setUtterances = doc.setUtterances := by
  have tokens : doc.dropUtterances.tokens = doc.tokens.map Token.unnumbered :=
    doc.tokens_mapTokens Token.unnumbered
  rw [setUtterances, tokens, firstSpeaker?_map (f := Token.unnumbered) fun _ => rfl,
    UtteranceState.run_unnumbered, setUtterances]
  dsimp only
  rw [dropUtterances, withTokens_mapTokens]

theorem processDiscourse_dropUtterances (lex : Lexicon) (marked : doc.marked = true) :
    doc.dropUtterances.processDiscourse lex = doc.processDiscourse lex := by
  have marks : doc.dropUtterances.markDiscourse = doc.markDiscourse := by
    have still : doc.dropUtterances.marked = doc.marked := rfl
    rw [markDiscourse, markDiscourse, still, marked, if_pos rfl, if_pos rfl,
      setUtterances_dropUtterances]
  rw [processDiscourse, marks, processDiscourse]

theorem prepared_dropUtterances (marked : doc.marked = true) (lex : Lexicon)
    (settings : PreparationSettings) (raw : RawMentions) :
    doc.dropUtterances.prepared lex settings raw = doc.prepared lex settings raw :=
  doc.prepared_mapTokens Token.unseen_unnumbered
    (fun _ same => processDiscourse_dropUtterances lex (same.trans marked)) settings raw

theorem map_utterance?_setUtterances (same : d.tokens.map Token.bare = doc.tokens.map Token.bare) :
    d.setUtterances.tokens.map Token.utterance? = doc.setUtterances.tokens.map Token.utterance? := by
  have starts (doc : Document) : doc.utteranceStart =
      { previousSpeaker? := (doc.tokens.map Token.bare).head?.bind Token.speaker? } := by
    rw [firstSpeaker?_map (f := Token.bare) fun _ => rfl, utteranceStart]
  rw [tokens_setUtterances, tokens_setUtterances, ← UtteranceState.map_utterance?_run_bare, starts,
    same, ← starts, UtteranceState.map_utterance?_run_bare]

theorem SameButMentions.tokens (h : doc.SameButMentions d) : d.tokens = doc.tokens :=
  congrArg (List.flatMap Sentence.tokens) h.sentences

theorem map_bare_laidOut (doc : Document) (settings : PreparationSettings) :
    (doc.laidOut settings).tokens.map Token.bare = doc.tokens.map Token.bare := by
  have cut (d : Document) (gap : Nat) :
      (d.numbered gap).tokens.map Token.bare = d.tokens.map Token.bare := by
    have same := congrArg (List.map Token.bare) (d.map_inParagraph_numbered gap)
    rw [List.map_map, List.map_map] at same
    exact same
  rw [laidOut, cut, doc.sameButMentions_markRelations.tokens]

/-- The analyses give every token of a marked document the utterance of the machine. -/
theorem map_utterance?_analysed (marked : doc.marked = true) (lex : Lexicon)
    (settings : PreparationSettings) :
    (doc.analysed lex settings).tokens.map Token.utterance? =
      doc.setUtterances.tokens.map Token.utterance? := by
  have still : (doc.laidOut settings).uttered = (doc.laidOut settings).setUtterances := by
    rw [Document.uttered, marked_laidOut, if_pos marked]
  have spoken (speakers : Table Nat String) (t : Token) :
      (respoken speakers t).utterance? = t.utterance? := by
    rw [respoken]
    split <;> rfl
  have discourse := ((doc.laidOut settings).processDiscourse_fields lex).2
  rw [(doc.laidOut settings).markDiscourse_fields.1, still] at discourse
  calc (doc.analysed lex settings).tokens.map Token.utterance?
    _ = ((doc.laidOut settings).processDiscourse lex).tokens.map Token.utterance? := by
      rw [analysed, (sameButMentions_initializeClusters _).tokens]
    _ = (doc.laidOut settings).setUtterances.tokens.map Token.utterance? := by
      rw [discourse, List.map_map]
      exact List.map_congr_left fun t _ => spoken _ t
    _ = doc.setUtterances.tokens.map Token.utterance? :=
      map_utterance?_setUtterances (doc.map_bare_laidOut settings)

/-- A preparation that succeeds writes nothing but mentions before the analyses and after them. -/
theorem exists_analysed_of_prepared {lex : Lexicon} {settings : PreparationSettings}
    {raw : RawMentions} {final : Document} {counts : PreparationSummary}
    (ok : doc.prepared lex settings raw = .ok (final, counts)) :
    ∃ taken, doc.SameButMentions taken ∧ (taken.analysed lex settings).SameButMentions final := by
  obtain ⟨counts', outcome, eq⟩ := map_eq_ok_iff.mp ok
  obtain ⟨rfl, -⟩ := Prod.mk.inj eq
  rw [prepare] at outcome ⊢
  split at outcome
  next => cases outcome
  next raw completed =>
    have same := sameButMentions_initializeMentions doc lex settings.twins raw
    split at outcome
    next => cases outcome
    next taken twins taking =>
      rw [taking] at same
      split at outcome
      next => cases outcome
      next analysis =>
        obtain ⟨-, rfl⟩ := analyse_eq_ok_iff.mp analysis
        have gathered := sameButMentions_gatherGoldClusters (taken.analysed lex settings)
        split at outcome
        next => cases outcome
        next d gathering =>
          rw [gathering] at gathered
          exact ⟨taken, same, gathered.trans (sameButMentions_assignPlaces d)⟩

theorem map_utterance?_prepared (marked : doc.marked = true) {lex : Lexicon}
    {settings : PreparationSettings} {raw : RawMentions} {final : Document}
    {counts : PreparationSummary} (ok : doc.prepared lex settings raw = .ok (final, counts)) :
    final.tokens.map Token.utterance? = doc.setUtterances.tokens.map Token.utterance? := by
  obtain ⟨taken, before, after⟩ := exists_analysed_of_prepared ok
  have bare : taken.tokens.map Token.bare = doc.tokens.map Token.bare := by rw [before.tokens]
  rw [after.tokens, map_utterance?_analysed (before.marked.trans marked),
    map_utterance?_setUtterances bare]

/-- The utterances that came with the tokens of `doc` are lost on `d`, but for those that the machine
finds again. -/
structure Renumbered (doc d : Document) : Prop where
  /-- A token has the utterance it came with exactly if the machine gives it that one in the same
  document without any utterances. -/
  kept : ∀ place t, doc.tokens[place]? = some t →
    (utteranceAt? d.tokens place = t.utterance? ↔
      utteranceAt? doc.dropUtterances.setUtterances.tokens place = t.utterance?)
  /-- In a transcript that is the number of changes of speaker up to the token. -/
  transcript : (∀ t ∈ doc.tokens, ∃ name, t.IsSpokenBy name) →
    ∀ place t, doc.tokens[place]? = some t →
      (utteranceAt? d.tokens place = t.utterance? ↔
        t.utterance? = some (speakerChanges doc.tokens place))

/-- The utterances that come with a marked document do not matter for its preparation, and do not
survive it. -/
theorem prepared_renumbered (doc : Document) (marked : doc.marked = true) (lex : Lexicon)
    (settings : PreparationSettings) (raw : RawMentions) :
    doc.dropUtterances.prepared lex settings raw = doc.prepared lex settings raw ∧
      ∀ final counts, doc.prepared lex settings raw = .ok (final, counts) →
        doc.Renumbered final := by
  refine ⟨prepared_dropUtterances marked lex settings raw, fun final counts ok => ?_⟩
  have numbered (place : Nat) : utteranceAt? final.tokens place =
      utteranceAt? doc.setUtterances.tokens place :=
    utteranceAt?_eq_of_map_eq (map_utterance?_prepared marked ok) place
  refine ⟨fun place t _ => ?_, fun spoken place t here => ?_⟩
  · rw [numbered, setUtterances_dropUtterances]
  · have counted : utteranceAt? doc.setUtterances.tokens place =
        some (speakerChanges doc.tokens place) := by
      rw [utteranceAt?, getElem?_setUtterances_transcript spoken here]
      rfl
    rw [numbered, counted, eq_comm]

/-- The second of two tokens has the utterance it came with, because the speaker changes once. -/
theorem prepared_renumbered_two_speakers :
    let lex : Lexicon := ⟨{}, {}, {}, {}, {}⟩
    let sentence : Sentence :=
      { tokens := [{ spoken "hi" "Ann" with utterance? := some 5 },
          { spoken "yes" "Bob" with utterance? := some 1 }] }
    let doc := { ofSentences "" [sentence] with marked := true }
    doc.marked = true ∧ ∃ final counts, doc.prepared lex {} ⟨[[]], none⟩ = .ok (final, counts) ∧
      final.tokens.map Token.utterance? = [some 0, some 1] ∧ doc.Renumbered final := by
  intro lex sentence doc
  have outcome : (doc.prepared lex {} ⟨[[]], none⟩).map
      (fun result => result.1.tokens.map Token.utterance?) = .ok [some 0, some 1] := by
    decide +kernel
  obtain ⟨⟨final, counts⟩, ok, utterances⟩ := map_eq_ok_iff.mp outcome
  exact ⟨rfl, final, counts, ok, utterances,
    (doc.prepared_renumbered rfl lex {} ⟨[[]], none⟩).2 final counts ok⟩

/-- The utterances that came with two tokens of a marked document are not kept. -/
theorem prepared_loses_utterances :
    let lex : Lexicon := ⟨{}, {}, {}, {}, {}⟩
    let sentence : Sentence :=
      { tokens := [{ spoken "hi" "A" with utterance? := some 1 },
          { spoken "yes" "B" with utterance? := some 0 }] }
    let doc := { ofSentences "d" [sentence] with marked := true }
    doc.marked = true ∧ doc.tokens.map Token.utterance? = [some 1, some 0] ∧
      ∃ final counts, doc.prepared lex {} ⟨[[]], none⟩ = .ok (final, counts) ∧
        final.tokens.map Token.utterance? = [some 0, some 1] := by
  intro lex sentence doc
  have outcome : (doc.prepared lex {} ⟨[[]], none⟩).map
      (fun result => result.1.tokens.map Token.utterance?) = .ok [some 0, some 1] := by
    decide +kernel
  obtain ⟨⟨final, counts⟩, ok, utterances⟩ := map_eq_ok_iff.mp outcome
  exact ⟨rfl, rfl, final, counts, ok, utterances⟩

end Document

end Discourse
