import Discourse.Proofs.Attribution.Composition
import Discourse.Report.Basic
import Discourse.Source.AnnotatedJson
/-!
# Consistent reports

The entries of a report are read off the quotations, its counts off the run that has attributed
them.  After an attribution of quotations that came without any, the two agree
(`attributeQuotes_report_consistent`): the parts of a mention and of a speaker are shown together, a
canonical mention is shown only with a mention, and each count is the number of the entries that
show what is counted.  Canonical mentions are counted while they are set, so that this needs
quotations without any to start with.

Quotations that were found by their glyphs or read from JSON stand at their indices, and no
attribution moves them.
-/

namespace Discourse

/-- An entry that shows all parts of what it shows, and a canonical mention only with a mention. -/
structure ReportEntry.Consistent (e : ReportEntry) : Prop where
  kind : e.mentionKind?.isSome = e.mention?.isSome
  sieve : e.mentionSieve?.isSome = e.mention?.isSome
  speakerSieve : e.speakerSieve?.isSome = e.speaker?.isSome
  canonical : e.canonical?.isSome → e.mention?.isSome

/-- A report that counts what its entries show. -/
structure Report.Counted (r : Report) : Prop where
  quotes : r.attribution.quotes = r.entries.length
  withMention : r.attribution.withMention = r.entries.countP fun e => e.mention?.isSome
  withSpeaker : r.attribution.withSpeaker = r.entries.countP fun e => e.speaker?.isSome
  withCanonical : r.attribution.withCanonical = r.entries.countP fun e => e.canonical?.isSome

theorem Quotation.consistent_reportEntry {q : Quotation}
    (referring : q.canonical?.isSome → q.mention?.isSome) : q.reportEntry.Consistent where
  kind := Option.isSome_map.trans Option.isSome_map.symm
  sieve := Option.isSome_map.trans Option.isSome_map.symm
  speakerSieve := Option.isSome_map.trans Option.isSome_map.symm
  canonical given := Option.isSome_map.trans (referring given)

/-! ## Indices -/

/-- Quotations that stand at their indices. -/
def InOrder (quotes : List Quotation) : Prop :=
  ∀ (i : Nat) (q : Quotation), quotes[i]? = some q → q.index = i

/-- The index of a quotation has nothing to do with its attribution. -/
theorem InOrder.of_map_bare {quotes quotes' : List Quotation} (inOrder : InOrder quotes)
    (same : quotes'.map Quotation.bare = quotes.map Quotation.bare) : InOrder quotes' := by
  intro i q here
  obtain ⟨q₀, there, bare⟩ := exists_getElem?_of_map_eq same here
  have index : q.bare.index = q₀.bare.index := congrArg Quotation.index bare
  exact index.trans (inOrder i q₀ there)

theorem Document.inOrder_detectQuotes (doc : Document) : InOrder doc.detectQuotes := by
  intro i q here
  rw [getElem?_detectQuotes] at here
  obtain ⟨range, -, rfl⟩ := Option.map_eq_some_iff.mp here
  rfl

theorem AnnotatedText.index_of_buildQuote {doc : Document} {range : Nat × Nat} {index : Nat}
    {q : Quotation} (built : buildQuote doc range index = .ok q) : q.index = index := by
  rw [buildQuote] at built
  split at built
  · cases built
    rfl
  · cases built

theorem AnnotatedText.inOrder_build {text : AnnotatedText} {doc : Document} {raw : RawMentions}
    (built : text.build = .ok (doc, raw)) : InOrder doc.quotes := by
  rw [build] at built
  obtain ⟨sentences, -, built⟩ := bind_eq_ok_iff.mp built
  obtain ⟨entities, -, built⟩ := bind_eq_ok_iff.mp built
  obtain ⟨quotes, read, built⟩ := bind_eq_ok_iff.mp built
  cases built
  intro i q here
  obtain ⟨⟨range, index⟩, place, made⟩ :=
    exists_getElem?_of_map_eq (mapM_eq_ok_iff.mp read).symm here
  rw [List.getElem?_zipIdx] at place
  obtain ⟨_, -, same⟩ := Option.map_eq_some_iff.mp place
  cases same
  exact (AnnotatedText.index_of_buildQuote made.symm).trans (Nat.zero_add i)

theorem AnnotatedText.inOrder_readDocument {text : String} {doc : Document} {raw : RawMentions}
    (read : readDocument text = .ok (doc, raw)) : InOrder doc.quotes := by
  rw [readDocument, documentOfValue] at read
  split at read
  next => cases read
  next => exact inOrder_build read

namespace Document

/-- The quotations of the document were found by their glyphs, or will be since it has none, or were
read from JSON. -/
inductive QuotesFound (doc : Document) : Prop
  | none (empty : doc.quotes = [])
  | detected (source : Document) (same : doc.quotes = source.detectQuotes)
  | read (text : String) (source : Document) (raw : RawMentions)
    (read : AnnotatedText.readDocument text = .ok (source, raw)) (same : doc.quotes = source.quotes)

theorem QuotesFound.inOrder {doc : Document} (found : doc.QuotesFound) :
    InOrder doc.quotesOrDetected := by
  rw [quotesOrDetected]
  split
  next => exact doc.inOrder_detectQuotes
  next given =>
    cases found with
    | none empty =>
      rw [empty] at given
      exact absurd rfl given
    | detected source same => exact same ▸ source.inOrder_detectQuotes
    | read text source raw read same => exact same ▸ AnnotatedText.inOrder_readDocument read

theorem bare_of_mem_quotesOrDetected {doc : Document} (plain : ∀ q ∈ doc.quotes, q.bare = q) :
    ∀ q ∈ doc.quotesOrDetected, q.bare = q := by
  intro q mem
  rw [quotesOrDetected] at mem
  split at mem
  next =>
    obtain ⟨range, -, rfl⟩ := List.mem_map.mp mem
    rfl
  next => exact plain q mem

/-! ## Canonical mentions -/

variable {doc final : Document}

theorem isSome_mention?_of_canonicalFor {q : Quotation} {span : TokenSpan}
    (found : doc.canonicalFor q = .ok (some span)) : q.mention?.isSome := by
  cases mention : q.mention? with
  | none =>
    rw [canonicalFor, mention] at found
    cases found
  | some m => rfl

/-- The last pass sets what it finds and counts what it has found. -/
theorem exists_found_of_canonicalize {count : Nat}
    (outcome : doc.canonicalize = .ok (final, count)) :
    ∃ found, doc.quotes.mapM doc.canonicalFor = .ok found ∧
      final.quotes = (doc.quotes.zip found).map (fun x => x.1.refer x.2) ∧
      count = found.countP Option.isSome := by
  rw [canonicalize] at outcome
  obtain ⟨found, each, done⟩ := bind_eq_ok_iff.mp outcome
  obtain ⟨document, counted⟩ := Prod.mk.inj (Except.ok.inj done)
  refine ⟨found, each, ?_, counted.symm⟩
  rw [← document]
  refine List.map_congr_left fun x _ => ?_
  obtain ⟨q, span?⟩ := x
  cases span? <;> rfl

/-- If no quotation has a canonical mention yet, the last pass counts those that have one in the
end, and they have a mention as well. -/
theorem canonicalize_of_plain {count : Nat} (plain : ∀ q ∈ doc.quotes, q.canonical? = none)
    (outcome : doc.canonicalize = .ok (final, count)) :
    count = final.quotes.countP (fun q => q.canonical?.isSome) ∧
      ∀ q ∈ final.quotes, q.canonical?.isSome → q.mention?.isSome := by
  obtain ⟨found, each, quotes, counted⟩ := exists_found_of_canonicalize outcome
  have canonical (x : Quotation × Option TokenSpan) (mem : x ∈ doc.quotes.zip found) :
      (x.1.refer x.2).canonical? = x.2 := by
    rw [Quotation.refer, plain _ (List.of_mem_zip mem).1, Option.or_none]
  have length : found.length ≤ doc.quotes.length := Nat.le_of_eq (length_of_mapM_eq_ok each)
  constructor
  · calc count = ((doc.quotes.zip found).map Prod.snd).countP Option.isSome := by
          rw [List.map_snd_zip length, counted]
      _ = (doc.quotes.zip found).countP fun x => (x.1.refer x.2).canonical?.isSome := by
          rw [List.countP_map]
          refine List.countP_congr fun x mem => ?_
          rw [canonical x mem, Function.comp_apply]
      _ = final.quotes.countP fun q => q.canonical?.isSome := by
          rw [quotes, List.countP_map]
          rfl
  · intro q mem given
    rw [quotes] at mem
    obtain ⟨x, pair, rfl⟩ := List.mem_map.mp mem
    rw [canonical x pair] at given
    obtain ⟨span, here⟩ := Option.isSome_iff_exists.mp given
    have answer := eq_ok_of_mem_zip each pair
    rw [here] at answer
    exact isSome_mention?_of_canonicalFor answer

/-! ## Reports -/

section Run

variable {S : Type} [QuoteScorer S] {summary : AttributionSummary} {lex : Lexicon}
  {settings : AttributionSettings} {scorer? : Option S}

/-- The counts of an attribution are taken from its two ends and from its last pass. -/
theorem counts_of_attributeQuotes
    (outcome : doc.attributeQuotes lex settings scorer? = .ok (final, summary)) :
    summary.quotes = doc.readyForAttribution.quotes.length ∧
      summary.withMention = final.quotes.countP (fun q => q.mention?.isSome) ∧
      summary.withSpeaker = final.quotes.countP (fun q => q.speaker?.isSome) ∧
      (doc.sieved lex settings scorer?).doc.canonicalize = .ok (final, summary.withCanonical) := by
  obtain ⟨mentioned, quoteSieves, withCanonical, passed, last, rfl⟩ :=
    attributeQuotes_eq_ok_iff.mp outcome
  obtain ⟨-, reached⟩ := Scene.foldlM_passMentions_eq_ok_iff.mp (map_eq_ok_iff.mpr ⟨_, passed, rfl⟩)
  rw [Chain.foldl_passSpeakers, ← show _ = mentioned from reached] at last
  exact ⟨rfl, rfl, rfl, last⟩

/-- After an attribution of quotations that came without any, the report is consistent: in each of
its entries, between its entries and its counts, and, if the quotations were found by their glyphs
or read from JSON, in the order of its entries. -/
theorem attributeQuotes_report_consistent (plain : ∀ q ∈ doc.quotes, q.bare = q)
    (outcome : doc.attributeQuotes lex settings scorer? = .ok (final, summary)) :
    (∀ e ∈ (final.report summary).entries, e.Consistent) ∧
      (doc.QuotesFound → ∀ (i : Nat) (e : ReportEntry),
        (final.report summary).entries[i]? = some e → e.index = i) ∧
      (final.report summary).Counted := by
  obtain ⟨quotes, withMention, withSpeaker, last⟩ := counts_of_attributeQuotes outcome
  have shape : doc.afterAttribution lex settings scorer? = .ok final :=
    map_eq_ok_iff.mpr ⟨_, outcome, rfl⟩
  have bare := map_bare_afterAttribution shape
  have ready : doc.readyForAttribution.quotes = doc.quotesOrDetected := by
    rw [readyForAttribution_eq]
    rfl
  rw [ready] at bare quotes
  have uncounted : ∀ q ∈ (doc.sieved lex settings scorer?).doc.quotes, q.canonical? = none := by
    intro q mem
    obtain ⟨i, here⟩ := List.getElem?_of_mem mem
    have canonicals := doc.map_canonical?_sieved lex settings scorer?
    rw [ready] at canonicals
    obtain ⟨q₀, there, same⟩ := exists_getElem?_of_map_eq canonicals here
    rw [same, ← bare_of_mem_quotesOrDetected plain q₀ (List.mem_of_getElem? there)]
    rfl
  obtain ⟨withCanonical, referring⟩ := canonicalize_of_plain uncounted last
  have shown (p : ReportEntry → Bool) : (final.report summary).entries.countP p =
      final.quotes.countP fun q => p q.reportEntry := List.countP_map
  refine ⟨?_, ?_, ?_⟩
  · intro e mem
    obtain ⟨q, inside, rfl⟩ := List.mem_map.mp mem
    exact Quotation.consistent_reportEntry (referring q inside)
  · intro found i e here
    have place : (final.quotes[i]?).map Quotation.reportEntry = some e :=
      List.getElem?_map.symm.trans here
    obtain ⟨q, there, rfl⟩ := Option.map_eq_some_iff.mp place
    exact found.inOrder.of_map_bare bare i q there
  · refine ⟨?_, ?_, ?_, ?_⟩
    · have same := congrArg List.length bare
      rw [List.length_map, List.length_map] at same
      rw [report, List.length_map, same]
      exact quotes
    · rw [shown]
      refine withMention.trans (List.countP_congr fun q _ => ?_)
      rw [Quotation.reportEntry, Option.isSome_map]
    · rw [shown]
      refine withSpeaker.trans (List.countP_congr fun q _ => ?_)
      rw [Quotation.reportEntry, Option.isSome_map]
    · rw [shown]
      exact withCanonical

end Run

/-- Of two quotations only the second is followed by the name of its speaker. -/
theorem attributeQuotes_report_consistent_joe :
    let turn := fun (word : String) =>
      [Token.ofWord "\"" "``", Token.ofWord word "UH", Token.ofWord "\"" "''"]
    let said := { Token.ofWord "said" "VBD" with baseForm := "say" }
    let joe := { Token.ofWord "Joe" "NNP" with ner := "PERSON" }
    let source := ofSentences "" [{ tokens := turn "Yes" }, { tokens := turn "Hi" ++ [said, joe] }]
    let doc := { source with quotes := source.detectQuotes }
    let settings := { AttributionSettings.default with
      quoteSieves := [.trigram], speakerSieves := [.deterministic] }
    let scorer? : Option Scorer := none
    (∀ q ∈ doc.quotes, q.bare = q) ∧ doc.QuotesFound ∧ ∃ final summary,
      doc.attributeQuotes .default settings scorer? = .ok (final, summary) ∧
        (∀ e ∈ (final.report summary).entries, e.Consistent) ∧
        (∀ (i : Nat) (e : ReportEntry), (final.report summary).entries[i]? = some e → e.index = i) ∧
        (final.report summary).Counted ∧
        (final.report summary).entries.map ReportEntry.canonical? = [none, some ⟨"Joe", 7, 8⟩] := by
  intro turn said joe source doc settings scorer?
  have plain : ∀ q ∈ doc.quotes, q.bare = q := by decide
  have detected : doc.QuotesFound := .detected source rfl
  have found : ((doc.attributeQuotes .default settings scorer?).map fun result =>
      (result.1.report result.2).entries.map ReportEntry.canonical?) =
      .ok [none, some ⟨"Joe", 7, 8⟩] := by
    decide +kernel
  obtain ⟨⟨final, summary⟩, outcome, canonicals⟩ := map_eq_ok_iff.mp found
  obtain ⟨consistent, indexed, counted⟩ := attributeQuotes_report_consistent plain outcome
  exact ⟨plain, detected, final, summary, outcome, consistent, indexed detected, counted,
    canonicals⟩

end Document

end Discourse
