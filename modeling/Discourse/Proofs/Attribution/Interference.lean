import Discourse.Proofs.Attribution.Readiness
/-!
# What an attribution leaves alone

An attribution writes to the quotations only what was missing there, and keeps what it has written:
a quotation has the mention it came with, or else the one that the first sieve with anything to say
gave it when its turn came.  The same holds of speakers.  Of the rest of the document it changes
the entity mentions and the marks by which tokens point at them, and nothing else.
-/

namespace Discourse

namespace Scene

variable {S : Type}

/-- The scene in which a sieve decides on the mention of a quotation: the sieves before it have been
over all quotations, and it has itself been over the earlier ones. -/
def mentionTurn [QuoteScorer S] (sc : Scene S) (before : List QuoteSieve) (sieve : QuoteSieve)
    (index : Nat) : Except Stop (Scene S) := do
  let passed ← sc.mentionedBy before
  ((List.range index).foldlM (sieveMention sieve) (passed, 0)).map Prod.fst

/-- The scene in which a sieve decides on the speaker of a quotation. -/
def speakerTurn (sc : Scene S) (before : List SpeakerSieve) (sieve : SpeakerSieve)
    (index : Nat) : Scene S :=
  ((List.range index).foldl (sieveSpeaker sieve) ((before.foldl passSpeakers (sc, {})).1, 0)).1

/-- The mention of a quotation that the first sieve with an answer gives when the turn of the
quotation comes. -/
def IsFirstMention [QuoteScorer S] (sc : Scene S) (sieves : List QuoteSieve) (index : Nat)
    (m : QuoteMention) : Prop :=
  ∃ before sieve after reached, sieves = before ++ sieve :: after ∧
    sc.mentionTurn before sieve index = .ok reached ∧
    sieve.resolve reached index = .ok (some m.toResolution) ∧
    m.sieve = sieve.key ∧
    ∀ before' sieve' after', before = before' ++ sieve' :: after' →
      ∃ reached', sc.mentionTurn before' sieve' index = .ok reached' ∧
        sieve'.resolve reached' index = .ok none

/-- The speaker of a quotation that the first sieve with an answer gives when the turn of the
quotation comes. -/
def IsFirstSpeaker (sc : Scene S) (sieves : List SpeakerSieve) (index : Nat) (s : QuoteSpeaker) :
    Prop :=
  ∃ before sieve after, sieves = before ++ sieve :: after ∧
    sieve.resolve? (sc.speakerTurn before sieve index) index = some s.name ∧
    s.sieve = sieve.key ∧
    ∀ before' sieve' after', before = before' ++ sieve' :: after' →
      sieve'.resolve? (sc.speakerTurn before' sieve' index) index = none

section Turns

variable [QuoteScorer S] {sc reached : Scene S} {before after sieves : List QuoteSieve}
  {sieve : QuoteSieve} {i : Nat} {q : Quotation}

theorem mentionTurn_eq_ok_iff : sc.mentionTurn before sieve i = .ok reached ↔
    sc.Passable before ∧
      (∀ j < i, ¬StopsAt sieve (Chain.mentions.turn sc before sieve j) j) ∧
      Chain.mentions.turn sc before sieve i = reached := by
  simp only [mentionTurn, bind_eq_ok_iff, mentionedBy_eq_ok_iff, foldlM_sieveMention_eq_ok_iff]
  constructor
  · rintro ⟨passed, ⟨passable, rfl⟩, swept⟩
    exact ⟨passable, swept⟩
  · rintro ⟨passable, swept⟩
    exact ⟨_, ⟨passable, rfl⟩, swept⟩

/-- Where the sieves get over all quotations, each of them has its say on a quotation that none of
the earlier ones has given a mention. -/
theorem resolve_mentionTurn (passable : sc.Passable (before ++ sieve :: after))
    (here : sc.doc.quotes[i]? = some q) (empty : q.mention? = none)
    (silent : Chain.mentions.firstAnswer? sc i before = none) :
    sc.mentionTurn before sieve i = .ok (Chain.mentions.turn sc before sieve i) ∧
      sieve.resolve (Chain.mentions.turn sc before sieve i) i =
        .ok (sieve.resolve? (Chain.mentions.turn sc before sieve i) i) := by
  obtain ⟨first, goes, -⟩ := (passable_append before _).mp passable
  rw [(Chain.onlyQuotes_run sc before).length] at goes
  have inside := (List.getElem?_eq_some_iff.mp here).1
  refine ⟨mentionTurn_eq_ok_iff.mpr
    ⟨first, fun j earlier => goes j (Nat.lt_trans earlier inside), rfl⟩, ?_⟩
  have unmentioned : (Chain.mentions.turn sc before sieve i).hasMention i = false := by
    rw [hasMention, Chain.turn, Chain.quote_sweep_of_le sieve _ (Nat.le_refl i), Chain.quote_run,
      here, silent, Option.map_some, Chain.settle_none, Option.bind_some, empty]
    rfl
  rw [QuoteSieve.resolve?]
  cases outcome : sieve.resolve (Chain.mentions.turn sc before sieve i) i with
  | ok found? => rfl
  | error stop =>
    obtain ⟨-, rfl, -⟩ := QuoteSieve.resolve_eq_error outcome
    exact absurd ⟨unmentioned, outcome⟩ (goes i inside)

theorem isFirstMention_iff (passable : sc.Passable sieves) (here : sc.doc.quotes[i]? = some q)
    (empty : q.mention? = none) (m : QuoteMention) :
    sc.IsFirstMention sieves i m ↔ Chain.mentions.firstAnswer? sc i sieves = some m := by
  rw [Chain.firstAnswer?_eq_some_iff]
  constructor
  · rintro ⟨before, sieve, after, reached, rfl, turn, answer, key, earlier⟩
    obtain ⟨-, -, rfl⟩ := mentionTurn_eq_ok_iff.mp turn
    refine ⟨before, sieve, after, rfl, ?_, fun before' sieve' after' split => ?_⟩
    · show (sieve.resolve? _ i).map _ = some m
      rw [QuoteSieve.resolve?, answer, Option.map_some, ← key]
    · obtain ⟨reached', turn', silent⟩ := earlier before' sieve' after' split
      obtain ⟨-, -, rfl⟩ := mentionTurn_eq_ok_iff.mp turn'
      show (sieve'.resolve? _ i).map _ = none
      rw [QuoteSieve.resolve?, silent, Option.map_none]
  · rintro ⟨before, sieve, after, rfl, answer, earlier⟩
    have silent : Chain.mentions.firstAnswer? sc i before = none :=
      (Chain.firstAnswer?_eq_none_iff sc i before).mpr earlier
    obtain ⟨found, resolved, rfl⟩ := Option.map_eq_some_iff.mp answer
    obtain ⟨turn, resolves⟩ := resolve_mentionTurn passable here empty silent
    refine ⟨before, sieve, after, _, rfl, turn, resolves.trans (congrArg _ resolved), rfl, ?_⟩
    rintro before' sieve' after' rfl
    rw [List.append_assoc, List.cons_append] at passable
    obtain ⟨turn', resolves'⟩ := resolve_mentionTurn passable here empty
      (Chain.firstAnswer?_eq_none_of_append silent)
    have none' := Option.map_eq_none_iff.mp (earlier before' sieve' after' rfl)
    exact ⟨_, turn', resolves'.trans (congrArg _ none')⟩

end Turns

theorem speakerTurn_eq (sc : Scene S) (before : List SpeakerSieve) (sieve : SpeakerSieve)
    (i : Nat) :
    sc.speakerTurn before sieve i = Chain.speakers.turn sc before sieve i := by
  rw [speakerTurn, Chain.foldl_sieveSpeaker, Chain.foldl_passSpeakers]
  rfl

theorem isFirstSpeaker_iff (sc : Scene S) (sieves : List SpeakerSieve) (i : Nat)
    (s : QuoteSpeaker) :
    sc.IsFirstSpeaker sieves i s ↔ Chain.speakers.firstAnswer? sc i sieves = some s := by
  have silent (sieve : SpeakerSieve) (sc : Scene S) :
      Chain.speakers.answer? sieve sc i = none ↔ sieve.resolve? sc i = none :=
    Option.map_eq_none_iff
  have answer (sieve : SpeakerSieve) (sc : Scene S) :
      Chain.speakers.answer? sieve sc i = some s ↔
        sieve.resolve? sc i = some s.name ∧ s.sieve = sieve.key := by
    refine Option.map_eq_some_iff.trans ⟨?_, fun ⟨found, key⟩ => ⟨_, found, by rw [← key]⟩⟩
    rintro ⟨name, resolved, rfl⟩
    exact ⟨resolved, rfl⟩
  simp only [IsFirstSpeaker, Chain.firstAnswer?_eq_some_iff, speakerTurn_eq, silent, answer,
    and_assoc]

end Scene

/-! ## One quotation -/

/-- The quotation `q'` that an attribution makes of the quotation `q` of an index; `sc` is the scene
before the first sieve, and `mentioned` is the one before the first sieve for speakers. -/
structure Quotation.Attributed {S : Type} [QuoteScorer S] (sc mentioned : Scene S)
    (settings : AttributionSettings) (index : Nat) (q q' : Quotation) : Prop where
  bare : q'.bare = q.bare
  mention (m : QuoteMention) : q'.mention? = some m ↔
    q.mention? = some m ∨ q.mention? = none ∧ sc.IsFirstMention settings.quoteSieves index m
  speaker (s : QuoteSpeaker) : q'.speaker? = some s ↔
    q.speaker? = some s ∨ q.speaker? = none ∧
      mentioned.IsFirstSpeaker settings.speakerSieves index s
  /-- A mention that is there after some of the sieves is there at the end. -/
  mentionStays (ran rest : List QuoteSieve) : settings.quoteSieves = ran ++ rest →
    ∃ reached, sc.mentionedBy ran = .ok reached ∧
      ∀ q₁ m, reached.doc.quotes[index]? = some q₁ → q₁.mention? = some m → q'.mention? = some m
  /-- A speaker that is there after some of the sieves is there at the end. -/
  speakerStays (ran rest : List SpeakerSieve) : settings.speakerSieves = ran ++ rest →
    ∀ q₁ s, (ran.foldl Scene.passSpeakers (mentioned, {})).1.doc.quotes[index]? = some q₁ →
      q₁.speaker? = some s → q'.speaker? = some s

/-- The document `final` that an attribution makes of the document `doc`.  Quotations are looked for
if none are given. -/
structure Document.Attributed {S : Type} [QuoteScorer S] (lex : Lexicon)
    (settings : AttributionSettings) (scorer? : Option S) (doc final : Document) : Prop where
  rest : final = { doc with
    sentences := final.sentences, entities := final.entities, quotes := final.quotes }
  text : doc.SameText final
  given : doc.quotes ≠ [] → doc.readyForAttribution.quotes = doc.quotes
  length : final.quotes.length = doc.readyForAttribution.quotes.length
  quotations : ∃ mentioned,
    (doc.readyForAttribution.scene lex settings scorer?).mentionedBy settings.quoteSieves =
      .ok mentioned ∧
    ∀ i (q q' : Quotation), doc.readyForAttribution.quotes[i]? = some q →
      final.quotes[i]? = some q' →
      q.Attributed (doc.readyForAttribution.scene lex settings scorer?) mentioned settings i q'

namespace Chain

variable {S σ β : Type} {c : Chain S σ β}

/-- What is filled after some of the sieves stays so. -/
theorem part?_run_of_prefix {sc : Scene S} {ran rest : List σ} {i : Nat} {q₁ q₂ : Quotation} {b : β}
    (early : (c.run sc ran).doc.quotes[i]? = some q₁) (full : c.part? q₁ = some b)
    (late : (c.run sc (ran ++ rest)).doc.quotes[i]? = some q₂) : c.part? q₂ = some b := by
  rw [run_append, quote_run, early, Option.map_some, Option.some.injEq] at late
  rw [← late, part?_settle, full, Option.some_or]

end Chain

/-- What the two chains and the last pass make of one quotation. -/
theorem Scene.attributed_quotation {S : Type} [QuoteScorer S] {sc : Scene S}
    {settings : AttributionSettings} {i : Nat} {q q₂ : Quotation}
    (passable : sc.Passable settings.quoteSieves) (before : sc.doc.quotes[i]? = some q)
    (after : (sc.attributed settings.quoteSieves settings.speakerSieves).doc.quotes[i]? = some q₂)
    (span? : Option TokenSpan) :
    q.Attributed sc (Chain.mentions.run sc settings.quoteSieves) settings i (q₂.refer span?) := by
  have mentions := Chain.quote_run (c := Chain.mentions) settings.quoteSieves sc i
  rw [before, Option.map_some] at mentions
  have speakers := after
  rw [Scene.attributed, Chain.quote_run, mentions, Option.map_some, Option.some.injEq] at speakers
  refine ⟨?_, fun m => ?_, fun s => ?_, fun ran rest split => ?_,
    fun ran rest split q₁ s early => ?_⟩
  · simp [← speakers]
  · rw [← speakers, Quotation.mention?_refer, Quotation.mention?_settle_speakers,
      Quotation.mention?_settle_mentions, Option.or_eq_some_iff]
    exact or_congr_right
      (and_congr_right fun empty => (isFirstMention_iff passable before empty m).symm)
  · simp [← speakers, Option.or_eq_some_iff, isFirstSpeaker_iff]
  · rw [split] at passable mentions speakers
    refine ⟨_, mentionedBy_eq_ok_iff.mpr ⟨((passable_append ran rest).mp passable).1, rfl⟩,
      fun q₁ m early full => ?_⟩
    rw [← speakers, Quotation.mention?_refer, Quotation.mention?_settle_speakers]
    exact Chain.part?_run_of_prefix (c := Chain.mentions) early full mentions
  · intro full
    rw [Chain.foldl_passSpeakers] at early
    rw [Scene.attributed, split] at after
    exact Chain.part?_run_of_prefix (c := Chain.speakers) early full after

/-! ## The document -/

namespace Document

theorem quotes_readyForAttribution {doc : Document} (quoted : doc.quotes ≠ []) :
    doc.readyForAttribution.quotes = doc.quotes := by
  rw [readyForAttribution_eq]
  show doc.quotesOrDetected = doc.quotes
  rw [quotesOrDetected, if_neg (by simpa using quoted)]

theorem attributed_of_attributeQuotes {S : Type} [QuoteScorer S] {doc final : Document}
    {summary : AttributionSummary} {lex : Lexicon} {settings : AttributionSettings}
    {scorer? : Option S}
    (outcome : doc.attributeQuotes lex settings scorer? = .ok (final, summary)) :
    doc.Attributed lex settings scorer? final := by
  have shape : doc.afterAttribution lex settings scorer? = .ok final :=
    map_eq_ok_iff.mpr ⟨_, outcome, rfl⟩
  have frame := doc.onlyQuotes_sieved lex settings scorer?
  obtain ⟨passable, shape⟩ := afterAttribution_eq_ok_iff_passable.mp shape
  obtain ⟨final_eq, pointwise⟩ := mapM_canonicalized_eq_ok_iff.mp shape
  refine ⟨?_, ?_, quotes_readyForAttribution, ?_, _,
    Scene.mentionedBy_eq_ok_iff.mpr ⟨passable, rfl⟩, fun i q q' before after => ?_⟩
  · rw [final_eq, readyForAttribution_eq]
    rfl
  · rw [final_eq]
    exact doc.sameText_readyForAttribution
  · have same := congrArg List.length pointwise
    rw [List.length_map, List.length_map] at same
    exact same.symm.trans frame.length
  · obtain ⟨q₂, here, canonical⟩ := exists_getElem?_of_map_eq pointwise.symm after
    obtain ⟨span?, -, rfl⟩ := map_eq_ok_iff.mp canonical.symm
    exact Scene.attributed_quotation passable before here span?

/-- An attribution gives each quotation at most what it lacked: its mention and its speaker are the
ones it came with, or else those of the first sieves that had an answer when its turn came, and no
later sieve touches them.  Nothing but quotations and entity mentions changes.  The attribution
succeeds if no token points beyond the list of entity mentions and every subject has a place. -/
theorem attributeQuotes_attributed {S : Type} [QuoteScorer S] (doc : Document) (lex : Lexicon)
    (settings : AttributionSettings) (scorer? : Option S) :
    (∀ final summary, doc.attributeQuotes lex settings scorer? = .ok (final, summary) →
      doc.Attributed lex settings scorer? final) ∧
    (doc.EntitiesInRange → doc.SubjectsFit → ∃ final summary,
      doc.attributeQuotes lex settings scorer? = .ok (final, summary)) := by
  constructor
  · intro final summary outcome
    exact attributed_of_attributeQuotes outcome
  · intro inRange fit
    obtain ⟨final, shape⟩ := inRange.afterAttribution fit lex settings scorer?
    obtain ⟨⟨_, summary⟩, outcome, rfl⟩ := map_eq_ok_iff.mp shape
    exact ⟨_, summary, outcome⟩

/-- A mention that was given with a quotation is kept by all sieves. -/
theorem attributeQuotes_attributed_given :
    let given : QuoteMention := ⟨⟨"she", 3, 4, .pronoun⟩, "given"⟩
    let q : Quotation := ⟨0, "\" Yes \"", none, none, 0, 3, 0, 0, some given, none, none⟩
    let tokens := [Token.ofWord "\"" ":", Token.ofWord "Yes" "UH", Token.ofWord "\"" ":",
      Token.ofWord "she" "PRP", Token.ofWord "said" "VBD"]
    let doc := (ofSentences "" [{ tokens }]).withQuotes [q]
    let scorer? : Option Scorer := none
    doc.EntitiesInRange ∧ doc.SubjectsFit ∧ ∃ final summary,
      doc.attributeQuotes default .default scorer? = .ok (final, summary) ∧
        doc.Attributed default .default scorer? final ∧
        final.quotes.map Quotation.mention? = [some given] := by
  intro given q tokens doc scorer?
  have inRange : doc.EntitiesInRange := by decide
  have fit : doc.SubjectsFit := by decide
  obtain ⟨spec, succeeds⟩ := attributeQuotes_attributed doc default .default scorer?
  obtain ⟨final, summary, outcome⟩ := succeeds inRange fit
  have attributed := spec final summary outcome
  refine ⟨inRange, fit, final, summary, outcome, attributed, ?_⟩
  have start : doc.readyForAttribution.quotes = [q] := attributed.given (List.cons_ne_nil q [])
  have length := attributed.length
  rw [start] at length
  obtain ⟨q', only⟩ := List.length_eq_one_iff.mp length
  obtain ⟨mentioned, -, each⟩ := attributed.quotations
  have kept := each 0 q q' (by rw [start]; rfl) (by rw [only]; rfl)
  rw [only, List.map_singleton, (kept.mention given).mpr (.inl rfl)]

end Document

end Discourse
