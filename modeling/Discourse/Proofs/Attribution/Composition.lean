import Discourse.Proofs.Attribution.Readiness
import Discourse.Proofs.Attribution.Sketch
/-!
# Attribution in two runs

The sieves of a chain may be run in two goes: an attribution with the first of them and no others,
followed by one with the rest, ends with the document that a single attribution ends with, and comes
to an end just if that does (`afterAttribution_append_iff`).

Between the two runs stand the canonical mentions that the first one sets and the preparations that
the second one starts with.  The former are not in the sketch of a scene, the latter find the
document ready, and the context of the second run is that of the first, since it goes by the ranges
of the quotations alone.  What a canonical mention is set to depends on the mention, and the mention
stays, so that in the end the second run writes over it what it was.
-/

namespace Discourse

/-- The settings with other sieves. -/
def AttributionSettings.withSieves (settings : AttributionSettings)
    (quoteSieves : List QuoteSieve) (speakerSieves : List SpeakerSieve) : AttributionSettings :=
  { settings with quoteSieves, speakerSieves }

namespace Document

/-! ## The context of the second run -/

theorem quoteAt?_map_bare (quotes : List Quotation) (token : Nat) :
    quoteAt? (quotes.map Quotation.bare) token = quoteAt? quotes token := by
  rw [quoteAt?, List.zipIdx_map, List.filter_map, List.map_map, quoteAt?]
  rfl

/-- The context goes by the ranges of the quotations and not by their attribution. -/
theorem context_withQuotes (doc : Document) (lex : Lexicon) {quotes : List Quotation}
    (same : quotes.map Quotation.bare = doc.quotes.map Quotation.bare) :
    (doc.withQuotes quotes).context lex = doc.context lex := by
  have places : (List.range doc.tokenCount).map (quoteAt? quotes) =
      (List.range doc.tokenCount).map (quoteAt? doc.quotes) := by
    refine List.map_congr_left fun token _ => ?_
    rw [← quoteAt?_map_bare, same, quoteAt?_map_bare]
  exact congrArg (fun quoteOfToken => { doc.context lex with quoteOfToken }) places

/-- The document `mid` is what an attribution of the document `doc` leaves. -/
structure LeftByAttribution {S : Type} [QuoteScorer S] (doc : Document) (lex : Lexicon)
    (settings : AttributionSettings) (scorer? : Option S) (mid : Document) : Prop where
  shape : mid = doc.readyForAttribution.withQuotes mid.quotes
  /-- The last pass goes over the quotations that the sieves leave. -/
  pointwise : (doc.sieved lex settings scorer?).doc.quotes.map
    doc.readyForAttribution.canonicalized = mid.quotes.map .ok
  ranges : mid.quotes.map Quotation.bare = doc.readyForAttribution.quotes.map Quotation.bare
  /-- Another attribution has nothing to prepare. -/
  ready : mid.readyForAttribution = mid

theorem leftByAttribution {S : Type} [QuoteScorer S] {doc mid : Document} {lex : Lexicon}
    {settings : AttributionSettings} {scorer? : Option S}
    (outcome : doc.afterAttribution lex settings scorer? = .ok mid) :
    doc.LeftByAttribution lex settings scorer? mid := by
  have ranges := map_bare_afterAttribution outcome
  obtain ⟨-, outcome⟩ := afterAttribution_eq_ok_iff_passable.mp outcome
  obtain ⟨quotes, mapped, rfl⟩ := map_eq_ok_iff.mp outcome
  have length : quotes.length = doc.readyForAttribution.quotes.length := by
    have same := congrArg List.length ranges
    rwa [List.length_map, List.length_map] at same
  exact ⟨rfl, mapM_eq_ok_iff.mp mapped, ranges,
    (doc.ready_readyForAttribution length).readyForAttribution⟩

/-! ## The sketches of the runs -/

section Runs

variable {S : Type} [QuoteScorer S] (doc : Document) (lex : Lexicon)
  (settings : AttributionSettings) (scorer? : Option S) (first second : List QuoteSieve)
  (speakerSieves : List SpeakerSieve)

/-- A single run goes on where the first of two has stopped. -/
theorem sieved_append_sketch :
    (doc.sieved lex (settings.withSieves (first ++ second) speakerSieves) scorer?).sketch =
      ((doc.sieved lex (settings.withSieves first []) scorer?).attributed second
        speakerSieves).sketch := by
  rw [sieved, sieved, Scene.attributed_sketch, Scene.attributed_sketch, Scene.attributed_sketch]
  simp only [AttributionSettings.withSieves, Scene.attributed, Chain.run_append]
  rfl

/-- The second of two runs starts where the first has stopped. -/
theorem scene_sketch_of_afterAttribution {mid : Document}
    (outcome : doc.afterAttribution lex (settings.withSieves first []) scorer? = .ok mid) :
    (mid.readyForAttribution.scene lex (settings.withSieves second speakerSieves) scorer?).sketch =
      (doc.sieved lex (settings.withSieves first []) scorer?).sketch := by
  have frame := doc.onlyQuotes_sieved lex (settings.withSieves first []) scorer?
  obtain ⟨shape, pointwise, ranges, ready⟩ := leftByAttribution outcome
  have sketches := map_of_canonicalized (f := Quotation.sketch) (fun _ _ => rfl) pointwise
  rw [ready, shape, scene, context_withQuotes _ lex ranges, frame.rest]
  exact congrArg (fun row =>
    { doc.readyForAttribution.scene lex (settings.withSieves [] []) scorer? with
      doc := doc.readyForAttribution.withQuotes row }) sketches

theorem sieved_sieved_sketch {mid : Document}
    (outcome : doc.afterAttribution lex (settings.withSieves first []) scorer? = .ok mid) :
    (mid.sieved lex (settings.withSieves second speakerSieves) scorer?).sketch =
      ((doc.sieved lex (settings.withSieves first []) scorer?).attributed second
        speakerSieves).sketch := by
  rw [sieved, Scene.attributed_sketch, Scene.attributed_sketch]
  exact congrArg (Scene.attributed · second speakerSieves)
    (doc.scene_sketch_of_afterAttribution lex settings scorer? first second speakerSieves outcome)

/-- All sieves get over the quotations if the first ones do and then the others. -/
theorem passable_append_iff :
    doc.Passable lex (settings.withSieves (first ++ second) speakerSieves) scorer? ↔
      doc.Passable lex (settings.withSieves first []) scorer? ∧
        (doc.sieved lex (settings.withSieves first []) scorer?).Passable second := by
  rw [Passable, ← Scene.passable_sketch]
  refine Iff.trans (Scene.passable_append first second) (and_congr ?_ ?_)
  · exact Scene.passable_sketch
      (doc.readyForAttribution.scene lex (settings.withSieves first []) scorer?) first
  · rw [← Scene.passable_sketch (doc.sieved lex (settings.withSieves first []) scorer?),
      sieved, Scene.attributed_sketch]
    exact Iff.rfl

end Runs

/-! ## The canonical mentions of the runs -/

/-- A quotation that has got its canonical mention early ends up with the same one as a quotation
that gets it in the end. -/
theorem canonicalized_again {doc : Document} {q₁ q₂ q₃ : Quotation} {span? : Option TokenSpan}
    (found : doc.canonicalFor q₁ = .ok span?)
    (kept : ∀ m, q₁.mention? = some m → q₃.mention? = some m) (same : q₂.sketch = q₃.sketch)
    (early : q₂.canonical? = span?.or q₁.canonical?) (late : q₃.canonical? = q₁.canonical?) :
    doc.canonicalized q₂ = doc.canonicalized q₃ := by
  have mention : q₂.sketch.mention? = q₃.sketch.mention? := congrArg Quotation.mention? same
  cases given : q₁.mention? with
  | none =>
    have nothing : span? = none := by
      rw [canonicalFor, given] at found
      exact (Except.ok.inj found).symm
    rw [nothing, Option.none_or, ← late] at early
    rw [Quotation.eq_of_sketch same early]
  | some m =>
    have found₃ : doc.canonicalFor q₃ = .ok span? := by
      rw [← found]
      exact canonicalFor_congr ((kept m given).trans given.symm)
    have found₂ : doc.canonicalFor q₂ = .ok span? := (canonicalFor_congr mention).trans found₃
    rw [canonicalized, canonicalized, found₂, found₃]
    refine congrArg Except.ok (Quotation.eq_of_sketch same ?_)
    show span?.or q₂.canonical? = span?.or q₃.canonical?
    rw [early, late, ← Option.or_assoc, Option.or_self]

theorem map_canonical?_sieved {S : Type} [QuoteScorer S] (doc : Document) (lex : Lexicon)
    (settings : AttributionSettings) (scorer? : Option S) :
    (doc.sieved lex settings scorer?).doc.quotes.map Quotation.canonical? =
      doc.readyForAttribution.quotes.map Quotation.canonical? :=
  (Chain.map_quotes_run (c := Chain.speakers) (fun _ _ => rfl) settings.speakerSieves _).trans
    (Chain.map_quotes_run (c := Chain.mentions) (fun _ _ => rfl) settings.quoteSieves _)

/-! ## Two runs and one -/

section Append

variable {S : Type} [QuoteScorer S] (doc : Document) (lex : Lexicon)
  (settings : AttributionSettings) (scorer? : Option S) (first second : List QuoteSieve)
  (speakerSieves : List SpeakerSieve)

/-- A mention that the first of two runs has found is there after a single run. -/
theorem exists_kept {i : Nat} {q : Quotation} {m : QuoteMention}
    (here : (doc.sieved lex (settings.withSieves first []) scorer?).doc.quotes[i]? = some q)
    (found : q.mention? = some m) :
    ∃ q', (doc.sieved lex (settings.withSieves (first ++ second) speakerSieves)
        scorer?).doc.quotes[i]? = some q' ∧ q'.mention? = some m := by
  have later : ∃ q', ((doc.sieved lex (settings.withSieves first []) scorer?).attributed second
      speakerSieves).doc.quotes[i]? = some q' ∧ q'.mention? = some m := by
    rw [Scene.attributed, Chain.quote_run, Chain.quote_run, here, Option.map_some, Option.map_some]
    exact ⟨_, rfl, by simp [found]⟩
  obtain ⟨q', there, mention⟩ := later
  have sketches := Scene.map_sketch_of_sketch_eq
    (doc.sieved_append_sketch lex settings scorer? first second speakerSieves)
  obtain ⟨q₃, place, same⟩ := exists_getElem?_of_map_eq sketches.symm there
  have mentions : q'.sketch.mention? = q₃.sketch.mention? := congrArg Quotation.mention? same
  exact ⟨q₃, place, mentions.symm.trans mention⟩

/-- In two runs every quotation ends up with the canonical mention that it gets in one. -/
theorem map_canonicalized_sieved {mid : Document}
    (outcome : doc.afterAttribution lex (settings.withSieves first []) scorer? = .ok mid) :
    (mid.sieved lex (settings.withSieves second speakerSieves) scorer?).doc.quotes.map
        doc.readyForAttribution.canonicalized =
      (doc.sieved lex (settings.withSieves (first ++ second) speakerSieves)
        scorer?).doc.quotes.map doc.readyForAttribution.canonicalized := by
  obtain ⟨-, pointwise, -, ready⟩ := leftByAttribution outcome
  have sketches := Scene.map_sketch_of_sketch_eq
    ((doc.sieved_sieved_sketch lex settings scorer? first second speakerSieves outcome).trans
      (doc.sieved_append_sketch lex settings scorer? first second speakerSieves).symm)
  have early := mid.map_canonical?_sieved lex (settings.withSieves second speakerSieves) scorer?
  rw [ready] at early
  have late := (doc.map_canonical?_sieved lex
    (settings.withSieves (first ++ second) speakerSieves) scorer?).trans
      (doc.map_canonical?_sieved lex (settings.withSieves first []) scorer?).symm
  refine List.ext_getElem? fun i => ?_
  rw [List.getElem?_map, List.getElem?_map]
  cases here₃ : (doc.sieved lex (settings.withSieves (first ++ second) speakerSieves)
      scorer?).doc.quotes[i]? with
  | none =>
    have same := congrArg (fun row => row[i]?) sketches
    rw [List.getElem?_map, List.getElem?_map, here₃, Option.map_none,
      Option.map_eq_none_iff] at same
    rw [same]
  | some q₃ =>
    obtain ⟨q₂, here₂, same⟩ := exists_getElem?_of_map_eq sketches.symm here₃
    obtain ⟨q₁, here₁, unwritten⟩ := exists_getElem?_of_map_eq late here₃
    obtain ⟨q', here', found⟩ := exists_getElem?_of_map_eq pointwise here₁
    obtain ⟨q'', here'', written⟩ := exists_getElem?_of_map_eq early here₂
    rw [here'] at here''
    cases here''
    obtain ⟨span?, spanned, rfl⟩ := map_eq_ok_iff.mp found
    rw [here₂]
    refine congrArg some
      (canonicalized_again spanned (fun m given => ?_) same.symm written unwritten)
    obtain ⟨q'', again, kept⟩ := exists_kept doc lex settings scorer? first second speakerSieves
      here₁ given
    rw [here₃] at again
    cases again
    exact kept

/-- Where the first of two attributions stops, a single one stops. -/
theorem afterAttribution_append_of_error {stop : Stop}
    (stopped : doc.afterAttribution lex (settings.withSieves first []) scorer? = .error stop)
    (final : Document) :
    doc.afterAttribution lex (settings.withSieves (first ++ second) speakerSieves) scorer? ≠
      .ok final := by
  intro whole
  obtain ⟨passable, whole⟩ := afterAttribution_eq_ok_iff_passable.mp whole
  obtain ⟨-, pointwise⟩ := mapM_canonicalized_eq_ok_iff.mp whole
  have start := ((doc.passable_append_iff lex settings scorer? first second speakerSieves).mp
    passable).1
  -- the sieves have not stopped, so that the last pass has done so, at a mention that is kept
  rw [start.afterAttribution, map_eq_error_iff] at stopped
  obtain ⟨q, mem, fails⟩ := exists_mem_of_mapM_eq_error stopped
  obtain ⟨rfl, m, place, found, beyond⟩ := canonicalized_eq_error_iff.mp fails
  obtain ⟨i, here⟩ := List.getElem?_of_mem mem
  obtain ⟨q', there, kept⟩ := exists_kept doc lex settings scorer? first second speakerSieves
    here found
  obtain ⟨q'', -, ok⟩ := exists_getElem?_of_map_eq pointwise there
  cases ok.symm.trans (canonicalized_eq_error_iff.mpr ⟨rfl, m, place, kept, beyond⟩)

/-- Two attributions, the second with the sieves that follow those of the first, leave what a single
one leaves, and both go through just if that does. -/
theorem afterAttribution_append_iff {final : Document} :
    doc.afterAttribution lex (settings.withSieves (first ++ second) speakerSieves) scorer? =
        .ok final ↔
      ∃ mid, doc.afterAttribution lex (settings.withSieves first []) scorer? = .ok mid ∧
        mid.afterAttribution lex (settings.withSieves second speakerSieves) scorer? =
          .ok final := by
  cases outcome : doc.afterAttribution lex (settings.withSieves first []) scorer? with
  | error stop =>
    have stops := doc.afterAttribution_append_of_error lex settings scorer? first second
      speakerSieves outcome final
    simp [stops]
  | ok mid =>
    obtain ⟨shape, -, -, ready⟩ := leftByAttribution outcome
    have start := (afterAttribution_eq_ok_iff_passable.mp outcome).1
    have base : mid.canonicalized = doc.readyForAttribution.canonicalized := by
      rw [shape]
      rfl
    have frame : mid.withQuotes = doc.readyForAttribution.withQuotes := by
      rw [shape]
      rfl
    have passable :
        doc.Passable lex (settings.withSieves (first ++ second) speakerSieves) scorer? ↔
          mid.Passable lex (settings.withSieves second speakerSieves) scorer? := by
      rw [passable_append_iff, and_iff_right start, Passable, ← Scene.passable_sketch,
        ← doc.scene_sketch_of_afterAttribution lex settings scorer? first second speakerSieves
          outcome, Scene.passable_sketch]
      rfl
    have same := mapM_congr_map
      (map_canonicalized_sieved doc lex settings scorer? first second speakerSieves outcome)
    simp only [Except.ok.injEq, exists_eq_left', afterAttribution_eq_ok_iff_passable, passable,
      ready, base, frame, same]

/-- An attribution with the first sieves and no speakers, followed by one with the other sieves,
leaves the document that one attribution with all the sieves leaves, and with it every annotation of
a quotation; either there is a result both ways or there is none.  There is one if no token points
at an entity mention of some other list and every subject has a place. -/
theorem attributeQuotes_append :
    (∀ final,
      (∃ summary, doc.attributeQuotes lex
        (settings.withSieves (first ++ second) speakerSieves) scorer? = .ok (final, summary)) ↔
      ∃ mid summary₁ summary₂,
        doc.attributeQuotes lex (settings.withSieves first []) scorer? = .ok (mid, summary₁) ∧
        mid.attributeQuotes lex (settings.withSieves second speakerSieves) scorer? =
          .ok (final, summary₂)) ∧
    (doc.EntitiesInRange → doc.SubjectsFit → ∃ mid final summary₁ summary₂ summary,
      doc.attributeQuotes lex (settings.withSieves first []) scorer? = .ok (mid, summary₁) ∧
      mid.attributeQuotes lex (settings.withSieves second speakerSieves) scorer? =
        .ok (final, summary₂) ∧
      doc.attributeQuotes lex (settings.withSieves (first ++ second) speakerSieves) scorer? =
        .ok (final, summary)) := by
  have runs (final : Document) :
      (∃ summary, doc.attributeQuotes lex
        (settings.withSieves (first ++ second) speakerSieves) scorer? = .ok (final, summary)) ↔
      ∃ mid summary₁ summary₂,
        doc.attributeQuotes lex (settings.withSieves first []) scorer? = .ok (mid, summary₁) ∧
        mid.attributeQuotes lex (settings.withSieves second speakerSieves) scorer? =
          .ok (final, summary₂) := by
    simp only [← afterAttribution_eq_ok_iff, exists_and_left, exists_and_right]
    exact doc.afterAttribution_append_iff lex settings scorer? first second speakerSieves
  refine ⟨runs, fun inRange fit => ?_⟩
  obtain ⟨final, whole⟩ := inRange.afterAttribution fit lex
    (settings.withSieves (first ++ second) speakerSieves) scorer?
  obtain ⟨summary, single⟩ := afterAttribution_eq_ok_iff.mp whole
  obtain ⟨mid, summary₁, summary₂, start, rest⟩ := (runs final).mp ⟨summary, single⟩
  exact ⟨mid, final, summary₁, summary₂, summary, start, rest, single⟩

end Append

/-- A name that the first token points at is found in two runs as in one. -/
theorem attributeQuotes_append_named :
    let joe : EntityMention := ⟨"Joe", 0, 0, 1, "PERSON", none⟩
    let tokens := [{ Token.ofWord "Joe" "NNP" with entity? := some 0 }, Token.ofWord "said" "VBD",
      Token.ofWord "\"" ":", Token.ofWord "Yes" "UH", Token.ofWord "\"" ":"]
    let doc := { ofSentences "" [{ tokens }] with entities := [joe] }
    let settings := fun first speakers =>
      AttributionSettings.withSieves .default first speakers
    let scorer? : Option Scorer := none
    doc.EntitiesInRange ∧ doc.SubjectsFit ∧ ∃ mid final summary₁ summary₂ summary,
      doc.attributeQuotes default (settings [.trigram] []) scorer? = .ok (mid, summary₁) ∧
      mid.attributeQuotes default (settings [.closest] [.deterministic]) scorer? =
        .ok (final, summary₂) ∧
      doc.attributeQuotes default (settings [.trigram, .closest] [.deterministic]) scorer? =
        .ok (final, summary) := by
  intro joe tokens doc settings scorer?
  have inRange : doc.EntitiesInRange := by decide
  have fit : doc.SubjectsFit := by decide
  have runs := attributeQuotes_append doc default .default scorer? [.trigram] [.closest]
    [.deterministic]
  exact ⟨inRange, fit, runs.2 inRange fit⟩

end Document

end Discourse
