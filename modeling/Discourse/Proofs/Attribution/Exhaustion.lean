import Discourse.Proofs.Attribution.Resumption
import Mathlib.Algebra.GroupWithZero.Nat
/-!
# Attributing until nothing is left

Another attribution with the same settings changes nothing exactly if no sieve that follows the
turns has an answer left (`Document.Exhausted`): the sieves that go by the text have said what they
had to say the first time.  Anything else that it does fills a gap, and so a row of attributions
comes to rest after as many of them as there are gaps (`Document.exists_fixed`).
-/

namespace Discourse

/-- A row whose members stay or get smaller is the same row or a smaller one. -/
theorem eq_or_sum_lt_of_forall₂ {α : Type} {size : α → Nat} {as bs : List α}
    (each : List.Forall₂ (fun a b => b = a ∨ size b < size a) as bs) :
    bs = as ∨ (bs.map size).sum < (as.map size).sum := by
  induction each with
  | nil => exact .inl rfl
  | @cons a b as bs first _ ih =>
    simp only [List.map_cons, List.sum_cons]
    rcases first with rfl | smaller
    · rcases ih with rfl | rest
      · exact .inl rfl
      · exact .inr (Nat.add_lt_add_left rest _)
    · have rest : (bs.map size).sum ≤ (as.map size).sum := by
        rcases ih with rfl | rest
        · exact Nat.le_refl _
        · exact Nat.le_of_lt rest
      exact .inr (Nat.add_lt_add_of_lt_of_le smaller rest)

namespace Quotation

/-- How much of a mention and a speaker a quotation is without. -/
def gaps (q : Quotation) : Nat := q.mention?.isNone.toNat + q.speaker?.isNone.toNat

theorem eq_of_bare {q q' : Quotation} (bare : q'.bare = q.bare) (mention : q'.mention? = q.mention?)
    (speaker : q'.speaker? = q.speaker?) (canonical : q'.canonical? = q.canonical?) : q' = q := by
  have whole (q : Quotation) : q = { q.bare with
    mention? := q.mention?, speaker? := q.speaker?, canonical? := q.canonical? } := rfl
  rw [whole q', whole q, bare, mention, speaker, canonical]

/-- A quotation stays as it is, or one of its gaps is filled. -/
theorem Resumed.eq_or_gaps_lt {settings : AttributionSettings} {row : List Quotation}
    {q q' : Quotation} (resumed : Resumed settings row q q') : q' = q ∨ q'.gaps < q.gaps := by
  rcases resumed.mention with mention | ⟨unmentioned, m, mention, -⟩
  · rcases resumed.speaker with speaker | ⟨unspoken, s, -, speaker, -⟩
    · exact .inl (eq_of_bare resumed.bare mention speaker (resumed.canonical mention))
    · right
      simp [gaps, mention, unspoken, speaker]
  · right
    rcases resumed.speaker with speaker | ⟨unspoken, s, -, speaker, -⟩
    · simp [gaps, unmentioned, mention, speaker]
    · simp [gaps, unmentioned, mention, unspoken, speaker]

end Quotation

namespace Document

/-- How much is missing in the attribution of a document. -/
def gaps (doc : Document) : Nat := (doc.quotes.map Quotation.gaps).sum

theorem Resumed.eq_or_gaps_lt {settings : AttributionSettings} {mid final : Document}
    (resumed : mid.Resumed settings final) : final = mid ∨ final.gaps < mid.gaps := by
  rcases eq_or_sum_lt_of_forall₂
    (resumed.quotes.imp fun _ _ resumed => resumed.eq_or_gaps_lt) with same | smaller
  · left
    rw [resumed.rest, same]
    rfl
  · exact .inr smaller

section

variable {S : Type} [QuoteScorer S]

/-- No sieve that follows the turns has an answer for a quotation that is without one. -/
structure Exhausted (doc : Document) (lex : Lexicon) (settings : AttributionSettings)
    (scorer? : Option S) : Prop where
  mention : ∀ sieve ∈ settings.quoteSieves, sieve.followsTurns = true →
    ∀ (i : Nat) (q : Quotation), doc.quotes[i]? = some q → q.mention? = none →
      sieve.resolve (doc.scene lex settings scorer?) i = .ok none
  speaker : .looseConversational ∈ settings.speakerSieves →
    ∀ (i : Nat) (q : Quotation), doc.quotes[i]? = some q → q.speaker? = none →
      SpeakerSieve.looseConversational.resolve? (doc.scene lex settings scorer?) i = none

/-- The document after a number of attributions. -/
def attributeTimes (lex : Lexicon) (settings : AttributionSettings) (scorer? : Option S) :
    Nat → Document → Except Stop Document
  | 0, doc => .ok doc
  | n + 1, doc =>
    doc.afterAttribution lex settings scorer? >>= attributeTimes lex settings scorer? n

variable {doc mid final : Document} {lex : Lexicon} {settings : AttributionSettings}
  {scorer? : Option S}

/-! ## When nothing is left -/

/-- An attribution that changes nothing has found no answer anywhere. -/
theorem exhausted_of_fixed (fixed : mid.afterAttribution lex settings scorer? = .ok mid) :
    mid.Exhausted lex settings scorer? := by
  have ready := (leftByAttribution fixed).ready
  have mentions : Chain.mentions.Silent (mid.scene lex settings scorer?) settings.quoteSieves := by
    refine Chain.silent_of_firstAnswer? _ fun i q here unmentioned => ?_
    have unanswered := unanswered_of_unmentioned fixed here unmentioned
    rwa [ready] at unanswered
  have speakers : Chain.speakers.Silent (mid.scene lex settings scorer?)
      settings.speakerSieves := by
    refine Chain.silent_of_firstAnswer? _ fun i q here unspoken => ?_
    have unanswered := unanswered_of_unspoken fixed here unspoken
    rwa [ready, Chain.run_of_silent _ mentions] at unanswered
  constructor
  · intro sieve listed turns i q here unmentioned
    have silent := Option.map_eq_none_iff.mp (mentions sieve listed i q here unmentioned)
    rw [QuoteSieve.resolve?] at silent
    cases outcome : sieve.resolve (mid.scene lex settings scorer?) i with
    | ok found? =>
      rw [outcome] at silent
      exact congrArg Except.ok silent
    | error stop =>
      obtain ⟨rfl, -, -⟩ := QuoteSieve.resolve_eq_error outcome
      cases turns
  · intro listed i q here unspoken
    exact Option.map_eq_none_iff.mp (speakers _ listed i q here unspoken)

/-- Where the turns have nothing to say either, no sieve has. -/
theorem Exhausted.sieved (outcome : doc.afterAttribution lex settings scorer? = .ok mid)
    (exhausted : mid.Exhausted lex settings scorer?) :
    mid.sieved lex settings scorer? = mid.scene lex settings scorer? := by
  have ready := (leftByAttribution outcome).ready
  have mentions : Chain.mentions.Silent (mid.scene lex settings scorer?) settings.quoteSieves := by
    intro sieve listed i q here unmentioned
    refine Option.map_eq_none_iff.mpr ?_
    rw [QuoteSieve.resolve?]
    cases turns : sieve.followsTurns with
    | true => rw [exhausted.mention sieve listed turns i q here unmentioned]
    | false => rw [resolve_of_unmentioned outcome here rfl unmentioned listed turns]
  have speakers : Chain.speakers.Silent (mid.scene lex settings scorer?)
      settings.speakerSieves := by
    intro sieve listed i q here unspoken
    refine Option.map_eq_none_iff.mpr ?_
    by_cases text : sieve = .looseConversational
    · subst text
      exact exhausted.speaker listed i q here unspoken
    · rw [SpeakerSieve.resolve?_eq_read? text, here]
      exact read?_of_unspoken outcome here rfl unspoken listed text
  rw [Document.sieved, ready, Scene.attributed, Chain.run_of_silent _ mentions,
    Chain.run_of_silent _ speakers]

theorem Exhausted.fixed (outcome : doc.afterAttribution lex settings scorer? = .ok mid)
    (exhausted : mid.Exhausted lex settings scorer?) :
    mid.afterAttribution lex settings scorer? = .ok mid := by
  have ready := (leftByAttribution outcome).ready
  have settled : mid.quotes.map mid.canonicalized = mid.quotes.map .ok := by
    refine List.map_congr_left fun q mem => ?_
    obtain ⟨span?, spanned, same⟩ := canonicalized_of_afterAttribution outcome mem
    refine map_eq_ok_iff.mpr ⟨span?, spanned, ?_⟩
    rw [Quotation.refer, same]
  rw [(passable_again outcome).afterAttribution, exhausted.sieved outcome, ready]
  exact map_eq_ok_iff.mpr ⟨mid.quotes, mapM_eq_ok_iff.mpr settled, rfl⟩

/-! ## Coming to rest -/

theorem attributeTimes_of_fixed (fixed : mid.afterAttribution lex settings scorer? = .ok mid)
    (n : Nat) : attributeTimes lex settings scorer? n mid = .ok mid := by
  induction n with
  | zero => rfl
  | succ n ih =>
    rw [attributeTimes, fixed]
    exact ih

/-- Each attribution fills a gap until one changes nothing. -/
theorem exists_fixed (outcome : doc.afterAttribution lex settings scorer? = .ok mid) {n : Nat}
    (enough : mid.gaps ≤ n) : ∃ fixed, attributeTimes lex settings scorer? n mid = .ok fixed ∧
      fixed.afterAttribution lex settings scorer? = .ok fixed := by
  induction n generalizing doc mid with
  | zero =>
    obtain ⟨final, again⟩ := exists_afterAttribution_again outcome
    rcases (resumed_again outcome again).eq_or_gaps_lt with rfl | smaller
    · exact ⟨final, rfl, again⟩
    · omega
  | succ n ih =>
    obtain ⟨final, again⟩ := exists_afterAttribution_again outcome
    rcases (resumed_again outcome again).eq_or_gaps_lt with rfl | smaller
    · exact ⟨final, attributeTimes_of_fixed again _, again⟩
    · obtain ⟨fixed, reached, rest⟩ := ih again (by omega)
      refine ⟨fixed, ?_, rest⟩
      rw [attributeTimes, again]
      exact reached

/-- After an attribution, another one with the same settings succeeds and adds to it at most what
the turns have to say, which is nothing exactly if they are exhausted; and as many more as there are
gaps lead to a document that stays as it is. -/
theorem attributeQuotes_again {summary : AttributionSummary}
    (outcome : doc.attributeQuotes lex settings scorer? = .ok (mid, summary)) :
    ∃ final summary', mid.attributeQuotes lex settings scorer? = .ok (final, summary') ∧
      mid.Resumed settings final ∧ (final = mid ↔ mid.Exhausted lex settings scorer?) ∧
      ∃ fixed summary'', attributeTimes lex settings scorer? mid.gaps mid = .ok fixed ∧
        fixed.attributeQuotes lex settings scorer? = .ok (fixed, summary'') := by
  have first := afterAttribution_eq_ok_iff.mpr ⟨summary, outcome⟩
  obtain ⟨final, again⟩ := exists_afterAttribution_again first
  obtain ⟨summary', second⟩ := afterAttribution_eq_ok_iff.mp again
  obtain ⟨fixed, reached, rest⟩ := exists_fixed first (Nat.le_refl mid.gaps)
  obtain ⟨summary'', last⟩ := afterAttribution_eq_ok_iff.mp rest
  refine ⟨final, summary', second, resumed_again first again, ⟨?_, ?_⟩, fixed, summary'', reached,
    last⟩
  · rintro rfl
    exact exhausted_of_fixed again
  · intro exhausted
    exact Except.ok.inj (again.symm.trans (exhausted.fixed first))

end

/-- Five turns, a paragraph each, the last of which says who speaks. -/
def fiveTurns : Document :=
  let turn := fun (word : String) =>
    [Token.ofWord "\"" "``", Token.ofWord word "UH", Token.ofWord "\"" "''"]
  let joe := { Token.ofWord "Joe" "NNP" with ner := "PERSON" }
  ofSentences "" [{ tokens := turn "Hi" }, { tokens := turn "Yes" }, { tokens := turn "Now" },
    { tokens := turn "Well" }, { tokens := turn "Bye" ++ [Token.ofWord "said" "VBD", joe] }]

/-- The first attribution leaves three turns without mention and speaker. -/
theorem attributeQuotes_again_fiveTurns :
    let settings := AttributionSettings.withSieves .default [.oneName, .conversational]
      [.deterministic]
    let scorer? : Option Scorer := none
    ∃ mid summary, fiveTurns.attributeQuotes default settings scorer? = .ok (mid, summary) ∧
      mid.gaps = 6 ∧
      ∃ final summary', mid.attributeQuotes default settings scorer? = .ok (final, summary') ∧
        mid.Resumed settings final ∧ (final = mid ↔ mid.Exhausted default settings scorer?) ∧
        ∃ fixed summary'', attributeTimes default settings scorer? mid.gaps mid = .ok fixed ∧
          fixed.attributeQuotes default settings scorer? = .ok (fixed, summary'') := by
  intro settings scorer?
  have found : ((fiveTurns.attributeQuotes default settings scorer?).map fun result =>
      result.1.gaps) = .ok 6 := by
    decide +kernel
  obtain ⟨⟨mid, summary⟩, outcome, gaps⟩ := map_eq_ok_iff.mp found
  exact ⟨mid, summary, outcome, gaps, attributeQuotes_again outcome⟩

/-- The third turn gets its mention from the fifth when the sieve has left the first one behind, so
that the first one gets it from the third in another attribution. -/
theorem attributeQuotes_fiveTurns_changes :
    let settings := AttributionSettings.withSieves .default [.oneName, .conversational]
      [.deterministic]
    let scorer? : Option Scorer := none
    let joe : Resolution := ⟨"Joe", 16, 17, .name⟩
    ∃ mid summary final summary',
      fiveTurns.attributeQuotes default settings scorer? = .ok (mid, summary) ∧
      mid.attributeQuotes default settings scorer? = .ok (final, summary') ∧
      mid.quotes.map Quotation.resolution? = [none, none, some joe, none, some joe] ∧
      final.quotes.map Quotation.resolution? = [some joe, none, some joe, none, some joe] ∧
      final.quotes.map Quotation.mention? ≠ mid.quotes.map Quotation.mention? := by
  intro settings scorer? joe
  have found : ((fiveTurns.attributeQuotes default settings scorer?).bind fun first =>
      (first.1.attributeQuotes default settings scorer?).map fun second =>
        (first.1.quotes.map Quotation.resolution?, second.1.quotes.map Quotation.resolution?)) =
      .ok ([none, none, some joe, none, some joe],
        [some joe, none, some joe, none, some joe]) := by
    decide +kernel
  obtain ⟨⟨mid, summary⟩, outcome, rest⟩ := bind_eq_ok_iff.mp found
  obtain ⟨⟨final, summary'⟩, again, both⟩ := map_eq_ok_iff.mp rest
  obtain ⟨before, after⟩ := Prod.mk.inj both
  refine ⟨mid, summary, final, summary', outcome, again, before, after, fun same => ?_⟩
  have resolutions := congrArg (List.map (Option.map QuoteMention.toResolution)) same
  rw [List.map_map, List.map_map] at resolutions
  have changed : [some joe, none, some joe, none, some joe] =
      [none, none, some joe, none, some joe] := after.symm.trans (resolutions.trans before)
  cases changed

end Document

end Discourse
