import Discourse.Proofs.Attribution.Composition
import Discourse.Proofs.Attribution.Provenance
import Mathlib.Data.List.Forall2
/-!
# Attributing again

Each sieve goes once over the quotations, in order, and a sieve that follows the turns looks for
what is there when it comes by.  What a later quotation gets then comes too late for an earlier one,
so that an attribution with the same settings may go on where the last one has stopped.

It goes on with the turns alone.  A sieve that goes by the text had nothing to say on a quotation
that is left without a mention, and the text has not changed.  The same holds of speakers, but a
quotation that has got its mention late may get the character of that mention.  So what was found
stays, and a new mention is that of some other quotation (`Document.Resumed`).
-/

namespace Discourse

/-- What follows the turns repeats the mention of another quotation. -/
theorem QuoteSieve.exists_mem_of_followsTurns {S : Type} [QuoteScorer S] {sieve : QuoteSieve}
    (turns : sieve.followsTurns = true) {sc : Scene S} {i : Nat} {r : Resolution}
    (found : sieve.resolve? sc i = some r) : ∃ q ∈ sc.doc.quotes, q.resolution? = some r := by
  rw [resolve?_eq_some_iff, resolve] at found
  split at found
  next => cases found
  next =>
    cases sieve with
    | conversational | looseConversational =>
      exact Scene.conversational?_cases (Except.ok.inj found)
    | selfReference | trigram | dependency | oneName | vocative | paragraphEnd | supervised
    | closest => cases turns

/-! ## What is new -/

namespace Quotation

/-- The quotation `q'` has the mention of `q`, or else one of a row of quotations that a sieve which
follows the turns has brought. -/
def MentionResumed (sieves : List QuoteSieve) (row : List Quotation) (q q' : Quotation) : Prop :=
  q'.mention? = q.mention? ∨
    q.mention? = none ∧ ∃ m, q'.mention? = some m ∧
      (∃ sieve ∈ sieves, sieve.followsTurns = true ∧ m.sieve = sieve.key) ∧
      ∃ q₀ ∈ row, q₀.resolution? = some m.toResolution

/-- The quotation `q'` has the speaker of `q`, or else the one two turns away, or the character of a
mention that is new. -/
def SpeakerResumed (sieves : List SpeakerSieve) (q q' : Quotation) : Prop :=
  q'.speaker? = q.speaker? ∨
    q.speaker? = none ∧ ∃ s sieve, q'.speaker? = some s ∧ sieve ∈ sieves ∧ s.sieve = sieve.key ∧
      (sieve = .looseConversational ∨
        sieve = .deterministic ∧ q.mention? = none ∧ q'.mention?.isSome)

/-- The quotation `q'` that another attribution makes of the quotation `q` of a row. -/
structure Resumed (settings : AttributionSettings) (row : List Quotation) (q q' : Quotation) :
    Prop where
  bare : q'.bare = q.bare
  mention : MentionResumed settings.quoteSieves row q q'
  speaker : SpeakerResumed settings.speakerSieves q q'
  canonical : q'.mention? = q.mention? → q'.canonical? = q.canonical?

theorem MentionResumed.exists_resolution {sieves : List QuoteSieve} {row : List Quotation}
    {q q' : Quotation} (resumed : MentionResumed sieves row q q') (mem : q ∈ row) {r : Resolution}
    (resolved : q'.resolution? = some r) : ∃ q₀ ∈ row, q₀.resolution? = some r := by
  rcases resumed with same | ⟨-, m, new, -, q₀, inRow, repeated⟩
  · exact ⟨q, mem, by rw [← resolved, resolution?, resolution?, same]⟩
  · rw [resolution?, new] at resolved
    cases resolved
    exact ⟨q₀, inRow, repeated⟩

theorem MentionResumed.unmentioned {sieves : List QuoteSieve} {row : List Quotation}
    {q q' : Quotation} (resumed : MentionResumed sieves row q q') (empty : q'.mention? = none) :
    q.mention? = none := by
  rcases resumed with same | ⟨none, -⟩
  · exact same ▸ empty
  · exact none

end Quotation

namespace Document

/-- The document `final` that another attribution makes of the document `mid`. -/
structure Resumed (settings : AttributionSettings) (mid final : Document) : Prop where
  rest : final = mid.withQuotes final.quotes
  quotes : List.Forall₂ (Quotation.Resumed settings mid.quotes) mid.quotes final.quotes

theorem canonicalFor_congr_resolution {doc : Document} {q q' : Quotation}
    (same : q.resolution? = q'.resolution?) : doc.canonicalFor q = doc.canonicalFor q' := by
  have span (q : Quotation) : (q.mention?.bind fun m => doc.entityOfSpan? m.tokenBegin m.tokenEnd) =
      q.resolution?.bind fun r => doc.entityOfSpan? r.tokenBegin r.tokenEnd := by
    rw [Quotation.resolution?, Option.bind_map]
    rfl
  rw [canonicalFor, canonicalFor, span, span, same]

/-- A scene of the second run: the text is the same, and each quotation has the mention it had or
one that was brought to it. -/
structure Resuming {S : Type} (mid : Document) (settings : AttributionSettings)
    (start sc : Scene S) : Prop where
  plain : sc.plain = start.plain
  quotation : ∀ (i : Nat) (q' : Quotation), sc.doc.quotes[i]? = some q' →
    ∃ q, mid.quotes[i]? = some q ∧
      Quotation.MentionResumed settings.quoteSieves mid.quotes q q'

theorem Resuming.exists_resolution {S : Type} {mid : Document} {settings : AttributionSettings}
    {start sc : Scene S} (resuming : Resuming mid settings start sc) {q' : Quotation}
    (mem : q' ∈ sc.doc.quotes) {r : Resolution}
    (resolved : q'.resolution? = some r) : ∃ q₀ ∈ mid.quotes, q₀.resolution? = some r := by
  obtain ⟨i, here⟩ := List.getElem?_of_mem mem
  obtain ⟨q, there, resumed⟩ := resuming.quotation i q' here
  exact resumed.exists_resolution (List.mem_of_getElem? there) resolved

section Again

variable {S : Type} [QuoteScorer S] {doc mid : Document} {lex : Lexicon}
  {settings : AttributionSettings} {scorer? : Option S}

/-! ## What the first run has left -/

theorem plain_scene (outcome : doc.afterAttribution lex settings scorer? = .ok mid) :
    (mid.scene lex settings scorer?).plain =
      (doc.readyForAttribution.scene lex settings scorer?).plain := by
  obtain ⟨shape, -, ranges, -⟩ := leftByAttribution outcome
  have same : mid.context lex = doc.readyForAttribution.context lex := by
    rw [shape]
    exact context_withQuotes _ lex ranges
  refine Chain.plain_of_onlyQuotes ⟨?_, ?_⟩ ranges
  · rw [scene, same]
    exact congrArg (fun d => { doc.readyForAttribution.scene lex settings scorer? with doc := d })
      shape
  · have length := congrArg List.length ranges
    rwa [List.length_map, List.length_map] at length

/-- The last pass changes the canonical mention alone. -/
theorem map_mentioned_sieved (outcome : doc.afterAttribution lex settings scorer? = .ok mid) :
    mid.quotes.map Quotation.mentioned =
      (Chain.mentions.run (doc.readyForAttribution.scene lex settings scorer?)
        settings.quoteSieves).doc.quotes.map Quotation.mentioned := by
  have pointwise := (leftByAttribution outcome).pointwise
  exact (map_of_canonicalized (fun _ _ => rfl) pointwise).trans
    (Chain.map_quotes_run (c := Chain.speakers) (fun _ _ => rfl) settings.speakerSieves _)

/-- A canonical mention that is set once more is the same. -/
theorem canonicalized_of_afterAttribution
    (outcome : doc.afterAttribution lex settings scorer? = .ok mid) {q : Quotation}
    (mem : q ∈ mid.quotes) :
    ∃ span?, mid.canonicalFor q = .ok span? ∧ span?.or q.canonical? = q.canonical? := by
  obtain ⟨shape, pointwise, -, -⟩ := leftByAttribution outcome
  have base : mid.canonicalFor = doc.readyForAttribution.canonicalFor := by
    rw [shape]
    rfl
  obtain ⟨i, here⟩ := List.getElem?_of_mem mem
  obtain ⟨q₁, -, first⟩ := exists_getElem?_of_map_eq pointwise.symm here
  obtain ⟨span?, spanned, rfl⟩ := map_eq_ok_iff.mp first.symm
  refine ⟨span?, ?_, ?_⟩
  · rw [base, ← spanned]
    exact canonicalFor_congr rfl
  · show span?.or (span?.or q₁.canonical?) = span?.or q₁.canonical?
    rw [← Option.or_assoc, Option.or_self]

/-- A quotation has the mention it came with, or the first one found for it. -/
theorem exists_mention?_eq (outcome : doc.afterAttribution lex settings scorer? = .ok mid)
    {i : Nat} {q : Quotation} (here : mid.quotes[i]? = some q) :
    ∃ q₀, doc.readyForAttribution.quotes[i]? = some q₀ ∧
      q.mention? = q₀.mention?.or (Chain.mentions.firstAnswer?
        (doc.readyForAttribution.scene lex settings scorer?) i settings.quoteSieves) := by
  obtain ⟨q₁, mentioned, same⟩ := exists_getElem?_of_map_eq (map_mentioned_sieved outcome) here
  rw [Chain.quote_run] at mentioned
  obtain ⟨q₀, start, rfl⟩ := Option.map_eq_some_iff.mp mentioned
  refine ⟨q₀, start, Eq.trans ?_ (Quotation.mention?_settle_mentions (S := S) q₀ _)⟩
  exact Quotation.mention?_eq_of_mentioned same

/-- A quotation has the speaker it came with, or the first one found for it. -/
theorem exists_speaker?_eq (outcome : doc.afterAttribution lex settings scorer? = .ok mid)
    {i : Nat} {q : Quotation} (here : mid.quotes[i]? = some q) :
    ∃ q₀, doc.readyForAttribution.quotes[i]? = some q₀ ∧
      q.speaker? = q₀.speaker?.or (Chain.speakers.firstAnswer?
        (Chain.mentions.run (doc.readyForAttribution.scene lex settings scorer?)
          settings.quoteSieves) i settings.speakerSieves) := by
  have pointwise := (leftByAttribution outcome).pointwise
  have speakers : mid.quotes.map Quotation.speaker? =
      (doc.sieved lex settings scorer?).doc.quotes.map Quotation.speaker? :=
    map_of_canonicalized (fun _ _ => rfl) pointwise
  obtain ⟨q₂, spoken, same⟩ := exists_getElem?_of_map_eq speakers here
  rw [sieved, Scene.attributed, Chain.quote_run, Chain.quote_run] at spoken
  obtain ⟨q₁, mentioned, rfl⟩ := Option.map_eq_some_iff.mp spoken
  obtain ⟨q₀, start, rfl⟩ := Option.map_eq_some_iff.mp mentioned
  refine ⟨q₀, start, ?_⟩
  rw [same, Quotation.speaker?_settle_speakers, Quotation.speaker?_settle_mentions]

theorem unanswered_of_unmentioned (outcome : doc.afterAttribution lex settings scorer? = .ok mid)
    {i : Nat} {q : Quotation} (here : mid.quotes[i]? = some q) (unmentioned : q.mention? = none) :
    Chain.mentions.firstAnswer? (doc.readyForAttribution.scene lex settings scorer?) i
      settings.quoteSieves = none := by
  obtain ⟨q₀, -, mention⟩ := exists_mention?_eq outcome here
  exact (Option.or_eq_none_iff.mp (mention.symm.trans unmentioned)).2

theorem unanswered_of_unspoken (outcome : doc.afterAttribution lex settings scorer? = .ok mid)
    {i : Nat} {q : Quotation} (here : mid.quotes[i]? = some q) (unspoken : q.speaker? = none) :
    Chain.speakers.firstAnswer? (Chain.mentions.run
      (doc.readyForAttribution.scene lex settings scorer?) settings.quoteSieves) i
        settings.speakerSieves = none := by
  obtain ⟨q₀, -, speaker⟩ := exists_speaker?_eq outcome here
  exact (Option.or_eq_none_iff.mp (speaker.symm.trans unspoken)).2

/-- A quotation has its mention already when the turn of a sieve for speakers comes, so that the
sieve reads what it would read in the end. -/
theorem resolve?_turn_eq_read? (outcome : doc.afterAttribution lex settings scorer? = .ok mid)
    {i : Nat} {q : Quotation} (here : mid.quotes[i]? = some q) {sieve : SpeakerSieve}
    (text : sieve ≠ .looseConversational) (before : List SpeakerSieve) :
    sieve.resolve? (Chain.speakers.turn (Chain.mentions.run
      (doc.readyForAttribution.scene lex settings scorer?) settings.quoteSieves) before sieve i) i =
        sieve.read? (doc.readyForAttribution.scene lex settings scorer?) q := by
  obtain ⟨q', there, known⟩ := exists_getElem?_of_map_eq ((map_mentioned_sieved outcome).trans
    (Chain.map_quotes_turn (c := Chain.speakers) (fun _ _ => rfl) _ before sieve i).symm) here
  rw [SpeakerSieve.resolve?_eq_read? text, there, Option.bind_some, ← SpeakerSieve.read?_plain,
    ← known, Chain.plain_turn (fun _ _ => rfl), Chain.plain_run (fun _ _ => rfl),
    SpeakerSieve.read?_plain]

section Left

variable (outcome : doc.afterAttribution lex settings scorer? = .ok mid) {i : Nat} {q : Quotation}
  (here : mid.quotes[i]? = some q) {sc : Scene S}
  (plain : sc.plain = (mid.scene lex settings scorer?).plain)

include outcome here plain

/-- A quotation left without a mention gets none from the text, nor does a sieve stop there. -/
theorem resolve_of_unmentioned (unmentioned : q.mention? = none) {sieve : QuoteSieve}
    (listed : sieve ∈ settings.quoteSieves) (text : sieve.followsTurns = false) :
    sieve.resolve sc i = .ok none := by
  have passable := (afterAttribution_eq_ok_iff_passable.mp outcome).1
  have unanswered := unanswered_of_unmentioned outcome here unmentioned
  obtain ⟨q₀, start, mention⟩ := exists_mention?_eq outcome here
  have empty := (Option.or_eq_none_iff.mp (mention.symm.trans unmentioned)).1
  obtain ⟨before, after, split⟩ := List.append_of_mem listed
  rw [Passable, split] at passable
  rw [split] at unanswered
  have silent := (Chain.firstAnswer?_eq_none_iff _ i _).mp unanswered before sieve after rfl
  have turn := (Scene.resolve_mentionTurn passable start empty
    (Chain.firstAnswer?_eq_none_of_append unanswered)).2
  rwa [Option.map_eq_none_iff.mp silent, ← QuoteSieve.resolve_plain text,
    Chain.plain_turn (fun _ _ => rfl), ← plain_scene outcome, ← plain,
    QuoteSieve.resolve_plain text] at turn

/-- A quotation left without a speaker gets none from the text and the mention it has. -/
theorem read?_of_unspoken (unspoken : q.speaker? = none) {sieve : SpeakerSieve}
    (listed : sieve ∈ settings.speakerSieves) (text : sieve ≠ .looseConversational) :
    sieve.read? sc q = none := by
  obtain ⟨before, after, split⟩ := List.append_of_mem listed
  have silent := (Chain.firstAnswer?_eq_none_iff _ i _).mp
    (unanswered_of_unspoken outcome here unspoken) before sieve after split
  have turn := Option.map_eq_none_iff.mp silent
  rwa [resolve?_turn_eq_read? outcome here text, ← SpeakerSieve.read?_plain, ← plain_scene outcome,
    ← plain, SpeakerSieve.read?_plain] at turn

end Left

/-! ## Mentions that the second run brings -/

/-- A visit brings a mention only to a quotation that the first run has left without one, so that
the sieve follows the turns. -/
theorem Resuming.visit (outcome : doc.afterAttribution lex settings scorer? = .ok mid)
    {sc : Scene S} (resuming : Resuming mid settings (mid.scene lex settings scorer?) sc)
    {sieve : QuoteSieve} (listed : sieve ∈ settings.quoteSieves) (i : Nat) :
    Resuming mid settings (mid.scene lex settings scorer?) (Chain.mentions.visit sieve sc i) := by
  refine ⟨(Chain.plain_visit (fun _ _ => rfl) sieve sc i).trans resuming.plain, ?_⟩
  intro j q'' after
  rw [Chain.quote_visit] at after
  split at after
  next same =>
    subst same
    obtain ⟨q', there, rfl⟩ := Option.map_eq_some_iff.mp after
    obtain ⟨q, before, resumed⟩ := resuming.quotation j q' there
    refine ⟨q, before, ?_⟩
    rw [Quotation.MentionResumed, Quotation.mention?_settle_mentions]
    cases answer : Chain.mentions.answer? sieve sc j with
    | none => rwa [Option.or_none]
    | some m =>
      cases given : q'.mention? with
      | some m' =>
        rw [Quotation.MentionResumed, given] at resumed
        rwa [Option.some_or]
      | none =>
        have unmentioned := resumed.unmentioned given
        obtain ⟨r, resolved, rfl⟩ := Option.map_eq_some_iff.mp answer
        have turns : sieve.followsTurns = true := by
          by_contra text
          rw [QuoteSieve.resolve?, resolve_of_unmentioned outcome before resuming.plain unmentioned
            listed (Bool.eq_false_iff.mpr text)] at resolved
          cases resolved
        obtain ⟨q₁, inScene, repeated⟩ := sieve.exists_mem_of_followsTurns turns resolved
        exact .inr ⟨unmentioned, _, Option.none_or, ⟨sieve, listed, turns, rfl⟩,
          resuming.exists_resolution inScene repeated⟩
  next other => exact resuming.quotation j q'' after

theorem resuming_run (outcome : doc.afterAttribution lex settings scorer? = .ok mid) :
    Resuming mid settings (mid.scene lex settings scorer?)
      (Chain.mentions.run (mid.scene lex settings scorer?) settings.quoteSieves) :=
  Chain.run_induction (P := Resuming mid settings (mid.scene lex settings scorer?))
    settings.quoteSieves (fun _ listed _ i resuming => resuming.visit outcome listed i)
    ⟨rfl, fun _ q here => ⟨q, here, .inl rfl⟩⟩

/-- No sieve stops where the first run has been. -/
theorem Resuming.not_stopsAt (outcome : doc.afterAttribution lex settings scorer? = .ok mid)
    {sc : Scene S} (resuming : Resuming mid settings (mid.scene lex settings scorer?) sc)
    {sieve : QuoteSieve} (listed : sieve ∈ settings.quoteSieves) (i : Nat) :
    ¬Scene.StopsAt sieve sc i := by
  rintro ⟨empty, stopped⟩
  obtain ⟨rfl, -, -⟩ := QuoteSieve.resolve_eq_error stopped
  cases there : sc.doc.quotes[i]? with
  | none =>
    rw [QuoteSieve.resolve, there] at stopped
    cases stopped
  | some q' =>
    obtain ⟨q, before, resumed⟩ := resuming.quotation i q' there
    rw [Scene.hasMention, there, Option.bind_some, Option.isSome_eq_false_iff,
      Option.isNone_iff_eq_none] at empty
    rw [resolve_of_unmentioned outcome before resuming.plain (resumed.unmentioned empty) listed
      rfl] at stopped
    cases stopped

theorem passable_again (outcome : doc.afterAttribution lex settings scorer? = .ok mid) :
    mid.Passable lex settings scorer? := by
  rw [Passable, (leftByAttribution outcome).ready]
  exact Scene.passable_induction (P := Resuming mid settings (mid.scene lex settings scorer?))
    (fun _ listed _ i resuming => resuming.visit outcome listed i)
    (fun _ listed _ i resuming => resuming.not_stopsAt outcome listed i)
    ⟨rfl, fun _ q here => ⟨q, here, .inl rfl⟩⟩

/-- Another run succeeds, since whatever mention it brings has been looked up by the first one. -/
theorem exists_afterAttribution_again
    (outcome : doc.afterAttribution lex settings scorer? = .ok mid) :
    ∃ final, mid.afterAttribution lex settings scorer? = .ok final := by
  have ready := (leftByAttribution outcome).ready
  have kept : (mid.sieved lex settings scorer?).doc.quotes.map Quotation.resolution? =
      (Chain.mentions.run (mid.scene lex settings scorer?)
        settings.quoteSieves).doc.quotes.map Quotation.resolution? := by
    rw [sieved, ready]
    exact Chain.map_quotes_run (c := Chain.speakers) (fun _ _ => rfl) settings.speakerSieves _
  have passes : ∀ q ∈ (mid.sieved lex settings scorer?).doc.quotes,
      ∃ q', mid.canonicalized q = .ok q' := by
    intro q mem
    obtain ⟨i, here⟩ := List.getElem?_of_mem mem
    obtain ⟨q₁, there, same⟩ := exists_getElem?_of_map_eq kept here
    cases resolved : q.resolution? with
    | none =>
      have unmentioned : q.mention? = none := Option.map_eq_none_iff.mp resolved
      exact ⟨q.refer none, map_eq_ok_iff.mpr ⟨none, by rw [canonicalFor, unmentioned]; rfl, rfl⟩⟩
    | some r =>
      obtain ⟨q₀, known, repeated⟩ := (resuming_run outcome).exists_resolution
        (List.mem_of_getElem? there) (same.symm.trans resolved)
      obtain ⟨span?, spanned, -⟩ := canonicalized_of_afterAttribution outcome known
      refine ⟨q.refer span?, map_eq_ok_iff.mpr ⟨span?, ?_, rfl⟩⟩
      exact (canonicalFor_congr_resolution (resolved.trans repeated.symm)).trans spanned
  obtain ⟨quotes, mapped⟩ := exists_mapM passes
  rw [(passable_again outcome).afterAttribution, ready]
  exact ⟨_, map_eq_ok_iff.mpr ⟨quotes, mapped, rfl⟩⟩

/-! ## One quotation in the second run -/

section Second

variable {final : Document} (outcome : doc.afterAttribution lex settings scorer? = .ok mid)
  (again : mid.afterAttribution lex settings scorer? = .ok final) {i : Nat} {q q' : Quotation}
  (before : mid.quotes[i]? = some q) (after : final.quotes[i]? = some q')

include outcome again before after

theorem bare_again : q'.bare = q.bare := by
  have ready := (leftByAttribution outcome).ready
  obtain ⟨q₀, here, same⟩ := exists_getElem?_of_map_eq (map_bare_afterAttribution again) after
  rw [ready] at here
  cases before.symm.trans here
  exact same

theorem mentionResumed_again :
    Quotation.MentionResumed settings.quoteSieves mid.quotes q q' := by
  have ready := (leftByAttribution outcome).ready
  have kept := map_mentioned_sieved again
  rw [ready] at kept
  obtain ⟨q₁, there, same⟩ := exists_getElem?_of_map_eq kept after
  obtain ⟨q₀, here, resumed⟩ := (resuming_run outcome).quotation i q₁ there
  cases before.symm.trans here
  rwa [Quotation.MentionResumed, Quotation.mention?_eq_of_mentioned same]

/-- A sieve that now reads the name of a speaker in the text has had nothing to go by but the
mention, so that the mention is new. -/
theorem deterministic_of_read? (unspoken : q.speaker? = none) {sieve : SpeakerSieve}
    (listed : sieve ∈ settings.speakerSieves) (text : sieve ≠ .looseConversational) {name : String}
    (read : sieve.read? (mid.scene lex settings scorer?) q' = some name) :
    sieve = .deterministic ∧ q.mention? = none ∧ q'.mention?.isSome := by
  have unread := read?_of_unspoken outcome before rfl unspoken listed text
  have bare := bare_again outcome again before after
  have changed : q'.mention? ≠ q.mention? := by
    intro same
    have mentioned : q'.mentioned = q.mentioned := by
      rw [Quotation.mentioned, Quotation.mentioned, bare, same]
    rw [← SpeakerSieve.read?_plain, mentioned, SpeakerSieve.read?_plain, unread] at read
    cases read
  rcases mentionResumed_again outcome again before after with same | ⟨unmentioned, m, new, -⟩
  · exact absurd same changed
  · refine ⟨?_, unmentioned, Option.isSome_of_eq_some new⟩
    by_contra other
    have mentioned : q.bare.mentioned = q.mentioned := by
      rw [Quotation.mentioned, Quotation.mentioned, unmentioned]
      rfl
    rw [SpeakerSieve.read?_eq_none_of_bare other] at read
    · cases read
    · rw [bare, ← SpeakerSieve.read?_plain, mentioned, SpeakerSieve.read?_plain, unread]

theorem speakerResumed_again : Quotation.SpeakerResumed settings.speakerSieves q q' := by
  have ready := (leftByAttribution outcome).ready
  obtain ⟨q₀, here, speaker⟩ := exists_speaker?_eq again after
  rw [ready] at here speaker
  cases before.symm.trans here
  cases spoken : q.speaker? with
  | some s => exact .inl (by rw [speaker, spoken, Option.some_or])
  | none =>
    cases answer : Chain.speakers.firstAnswer? (Chain.mentions.run
        (mid.scene lex settings scorer?) settings.quoteSieves) i settings.speakerSieves with
    | none => exact .inl (by rw [speaker, answer, Option.or_none])
    | some s =>
      obtain ⟨earlier, sieve, later, split, found, -⟩ :=
        (Chain.firstAnswer?_eq_some_iff _ i _ s).mp answer
      have listed : sieve ∈ settings.speakerSieves := by simp [split]
      obtain ⟨name, resolved, rfl⟩ := Option.map_eq_some_iff.mp found
      rw [spoken, answer, Option.none_or] at speaker
      refine .inr ⟨spoken, _, sieve, speaker, listed, rfl, ?_⟩
      by_cases text : sieve = .looseConversational
      · exact .inl text
      · have read := resolve?_turn_eq_read? again after text earlier
        rw [ready] at read
        exact .inr (deterministic_of_read? outcome again before after spoken listed text
          (read.symm.trans resolved))

/-- The canonical mention goes by the mention. -/
theorem canonical_again (same : q'.mention? = q.mention?) : q'.canonical? = q.canonical? := by
  have ready := (leftByAttribution outcome).ready
  have pointwise := (leftByAttribution again).pointwise
  have start := mid.map_canonical?_sieved lex settings scorer?
  rw [ready] at pointwise start
  obtain ⟨q₁, there, set⟩ := exists_getElem?_of_map_eq pointwise.symm after
  obtain ⟨q₀, here, unset⟩ := exists_getElem?_of_map_eq start there
  cases before.symm.trans here
  obtain ⟨span?, spanned, rfl⟩ := map_eq_ok_iff.mp set.symm
  obtain ⟨span'?, spanned', settled⟩ :=
    canonicalized_of_afterAttribution outcome (List.mem_of_getElem? before)
  have known : span? = span'? :=
    Except.ok.inj (spanned.symm.trans ((canonicalFor_congr same).trans spanned'))
  show span?.or q₁.canonical? = q.canonical?
  rw [unset, known, settled]

end Second

/-- What another attribution makes of the document that one with the same settings has left. -/
theorem resumed_again {final : Document}
    (outcome : doc.afterAttribution lex settings scorer? = .ok mid)
    (again : mid.afterAttribution lex settings scorer? = .ok final) :
    mid.Resumed settings final := by
  have ready := (leftByAttribution outcome).ready
  obtain ⟨shape, -, ranges, -⟩ := leftByAttribution again
  rw [ready] at shape ranges
  have length := congrArg List.length ranges
  rw [List.length_map, List.length_map] at length
  refine ⟨shape, List.forall₂_iff_get.mpr ⟨length.symm, fun i inside inside' => ?_⟩⟩
  have before : mid.quotes[i]? = some (mid.quotes.get ⟨i, inside⟩) :=
    List.getElem?_eq_getElem inside
  have after : final.quotes[i]? = some (final.quotes.get ⟨i, inside'⟩) :=
    List.getElem?_eq_getElem inside'
  exact {
    bare := bare_again outcome again before after
    mention := mentionResumed_again outcome again before after
    speaker := speakerResumed_again outcome again before after
    canonical := canonical_again outcome again before after }

end Again

end Document

end Discourse
