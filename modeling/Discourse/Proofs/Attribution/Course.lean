import Discourse.Proofs.Address
import Discourse.Proofs.Attribution.Chain
/-!
# The course of an attribution

A sieve for mentions stops at one thing only: the place of the subject of a reporting verb is a sum
of positions that is too large.  It comes to that only at a quotation that still has no mention when
its turn comes.  If no sieve does (`Scene.Passable`), the program does what the chain of mentions
does (`Scene.foldlM_passMentions_eq_ok_iff`); if one does, there is no result.  No sieve does so in
a document whose subjects all have places that fit (`Document.SubjectsFit`).

Then the speakers are looked for and each quotation gets its canonical mention
(`Document.afterAttribution_eq_ok_iff_passable`).
-/

namespace Discourse

/-! ## Where a sieve stops -/

/-- The place of every subject that the dependencies of a sentence name is a position. -/
def Document.SubjectsFit (doc : Document) : Prop :=
  ∀ entry ∈ doc.sentences.zipIdx, ∀ graph ∈ entry.1.dependencies?, ∀ e ∈ graph.edges,
    e.relation = "nsubj" → doc.offset entry.2 + e.dependent < wordLimit

instance (doc : Document) : Decidable doc.SubjectsFit :=
  inferInstanceAs (Decidable (∀ entry ∈ doc.sentences.zipIdx, ∀ graph ∈ entry.1.dependencies?,
    ∀ e ∈ graph.edges, e.relation = "nsubj" → doc.offset entry.2 + e.dependent < wordLimit))

/-- The places of subjects are a matter of the dependencies and of the lengths of the sentences. -/
theorem Document.SubjectsFit.congr {doc d : Document} (fit : doc.SubjectsFit)
    (same : d.sentences.map Sentence.frame = doc.sentences.map Sentence.frame) : d.SubjectsFit := by
  rintro ⟨s', i⟩ mem graph given
  obtain ⟨s, here, frame⟩ := exists_getElem?_of_map_eq same (List.mem_zipIdx_iff_getElem?.mp mem)
  have dependencies : s'.dependencies? = s.dependencies? := congrArg Prod.snd frame
  have fits := fit (s, i) (List.mem_zipIdx_iff_getElem?.mpr here) graph (dependencies ▸ given)
  rw [← offset_congr same] at fits
  exact fits

section Stopping

variable {S : Type} {sc : Scene S} {stop : Stop}

theorem Scene.reportingSubject?_eq_error {graph : DependencyGraph} {offset : Nat}
    {entry : Token × Nat} (stopped : sc.reportingSubject? graph offset entry = some (.error stop)) :
    stop = .overflow ∧ ∃ e ∈ graph.edges, e.relation = "nsubj" ∧
      wordLimit ≤ offset + e.dependent := by
  unfold reportingSubject? at stopped
  dsimp only at stopped
  split at stopped
  next => cases stopped
  next =>
    split at stopped
    next => cases stopped
    next subject child =>
      obtain ⟨e, found, rfl⟩ := Option.map_eq_some_iff.mp child
      have edge := List.find?_some found
      rw [Bool.and_eq_true, beq_iff_eq, beq_iff_eq] at edge
      by_cases fits : offset + e.dependent < wordLimit
      · -- a place that fits is looked up
        rw [addOffset_of_lt fits] at stopped
        obtain ⟨m, -, ok⟩ := Option.map_eq_some_iff.mp stopped
        cases ok
      · rw [addOffset_of_le (Nat.le_of_not_lt fits)] at stopped
        cases stopped
        exact ⟨rfl, e, List.mem_of_find?_eq_some found, edge.2, Nat.le_of_not_lt fits⟩

theorem Scene.sentenceSubject?_eq_error {sentence : Nat}
    (stopped : sc.sentenceSubject? sentence = some (.error stop)) :
    stop = .overflow ∧ ¬sc.doc.SubjectsFit := by
  obtain ⟨s, here, stopped⟩ := Option.bind_eq_some_iff.mp stopped
  obtain ⟨graph, given, stopped⟩ := Option.bind_eq_some_iff.mp stopped
  obtain ⟨entry, -, stopped⟩ := List.exists_of_findSome?_eq_some stopped
  obtain ⟨rfl, e, edge, subject, exceeds⟩ := reportingSubject?_eq_error stopped
  refine ⟨rfl, fun fit => Nat.not_lt.mpr exceeds ?_⟩
  exact fit (s, sentence) (List.mem_zipIdx_iff_getElem?.mpr here) graph given e edge subject

/-- Of all sieves it is the one that reads dependencies that may stop, at a subject whose place does
not fit. -/
theorem QuoteSieve.resolve_eq_error [QuoteScorer S] {sieve : QuoteSieve} {i : Nat}
    (stopped : sieve.resolve sc i = .error stop) :
    sieve = .dependency ∧ stop = .overflow ∧ ¬sc.doc.SubjectsFit := by
  rw [resolve] at stopped
  cases here : sc.doc.quotes[i]? with
  | none =>
    rw [here] at stopped
    cases stopped
  | some q =>
    rw [here] at stopped
    cases sieve with
    | dependency =>
      refine ⟨rfl, ?_⟩
      dsimp only [Scene.dependency] at stopped
      split at stopped
      next => cases stopped
      next found subject =>
        obtain ⟨sentence, -, here⟩ := List.exists_of_findSome?_eq_some subject
        rw [map_eq_error_iff.mp stopped] at here
        exact Scene.sentenceSubject?_eq_error here
    | selfReference | trigram | oneName | vocative | paragraphEnd | supervised | conversational
    | looseConversational | closest => cases stopped

end Stopping

/-! ## Going over the quotations -/

namespace Scene

variable {S : Type} [QuoteScorer S] {sieve : QuoteSieve} {sc sc' : Scene S} {stop : Stop}

/-- A sieve stops at a quotation: it still has no mention, and the way to one leads to a sum that is
too large. -/
def StopsAt (sieve : QuoteSieve) (sc : Scene S) (i : Nat) : Prop :=
  sc.hasMention i = false ∧ sieve.resolve sc i = .error .overflow

/-- The sieves of a chain get over all quotations, each in the scene that the earlier ones leave. -/
def Passable (sc : Scene S) : List QuoteSieve → Prop
  | [] => True
  | sieve :: rest =>
    (∀ i < sc.doc.quotes.length, ¬StopsAt sieve (Chain.mentions.sweep sieve sc i) i) ∧
      Passable (Chain.mentions.pass sc sieve) rest

theorem sieveMention_of_full {state : Scene S × Nat} {i : Nat}
    (full : state.1.hasMention i = true) : sieveMention sieve state i = .ok state :=
  if_pos full

theorem sieveMention_of_empty {state : Scene S × Nat} {i : Nat}
    (empty : state.1.hasMention i = false) :
    sieveMention sieve state i = (sieve.resolve state.1 i).map fun
      | none => state
      | some found =>
        (state.1.modifyQuote i fun q => q.withMention found sieve.key, state.2 + 1) := by
  rw [sieveMention, if_neg (Bool.eq_false_iff.mp empty)]
  cases sieve.resolve state.1 i with
  | error stop => rfl
  | ok found? => cases found? <;> rfl

theorem sieveMention_eq_ok_iff {state : Scene S × Nat} {i : Nat} :
    (sieveMention sieve state i).map Prod.fst = .ok sc' ↔
      ¬StopsAt sieve state.1 i ∧ Chain.mentions.visit sieve state.1 i = sc' := by
  cases full : state.1.hasMention i with
  | true =>
    have goes : ¬StopsAt sieve state.1 i := fun stops => Bool.eq_false_iff.mp stops.1 full
    rw [sieveMention_of_full full, Chain.visit_of_full Chain.mentions full]
    simp [Except.map, goes]
  | false =>
    have empty : ¬((state.1.doc.quotes[i]?).bind Quotation.mention?).isSome :=
      Bool.eq_false_iff.mp full
    have answer : Chain.mentions.answer? sieve state.1 i = (sieve.resolve? state.1 i).map
      fun found => { toResolution := found, sieve := sieve.key } := rfl
    rw [sieveMention_of_empty full]
    cases outcome : sieve.resolve state.1 i with
    | error stop =>
      obtain ⟨-, rfl, -⟩ := QuoteSieve.resolve_eq_error outcome
      simp [Except.map, StopsAt, full, outcome]
    | ok found? =>
      have goes : ¬StopsAt sieve state.1 i := by
        rintro ⟨-, stopped⟩
        cases outcome.symm.trans stopped
      rw [QuoteSieve.resolve?, outcome] at answer
      cases found? with
      | none =>
        rw [Chain.visit_of_silent Chain.mentions answer]
        simp [Except.map, goes]
      | some found =>
        rw [Chain.visit_of_answer Chain.mentions empty answer, and_iff_right goes]
        exact iff_of_eq (Except.ok.injEq _ _)

theorem sieveMention_eq_error {state : Scene S × Nat} {i : Nat}
    (stopped : sieveMention sieve state i = .error stop) : stop = .overflow := by
  cases full : state.1.hasMention i with
  | true =>
    rw [sieveMention_of_full full] at stopped
    cases stopped
  | false =>
    rw [sieveMention_of_empty full, map_eq_error_iff] at stopped
    exact (QuoteSieve.resolve_eq_error stopped).2.1

theorem foldlM_sieveMention_eq_ok_iff (state : Scene S × Nat) (n : Nat) :
    ((List.range n).foldlM (sieveMention sieve) state).map Prod.fst = .ok sc' ↔
      (∀ i < n, ¬StopsAt sieve (Chain.mentions.sweep sieve state.1 i) i) ∧
        Chain.mentions.sweep sieve state.1 n = sc' := by
  induction n generalizing sc' with
  | zero => simp [Except.map, pure, Except.pure, Chain.sweep]
  | succ n ih =>
    let visited (before after : Scene S) : Prop :=
      ¬StopsAt sieve before n ∧ Chain.mentions.visit sieve before n = after
    rw [foldlM_range_succ, map_bind_eq_ok_iff Prod.fst Prod.fst visited
      fun _ _ => sieveMention_eq_ok_iff, Chain.sweep_succ, Nat.forall_lt_succ_right]
    constructor
    · rintro ⟨before, first, goes, visit⟩
      obtain ⟨calm, rfl⟩ := ih.mp first
      exact ⟨⟨calm, goes⟩, visit⟩
    · rintro ⟨⟨calm, goes⟩, visit⟩
      exact ⟨_, ih.mpr ⟨calm, rfl⟩, goes, visit⟩

theorem passMentions_eq_ok_iff {state : Scene S × Table String Nat} :
    (passMentions state sieve).map Prod.fst = .ok sc' ↔
      (∀ i < state.1.doc.quotes.length,
        ¬StopsAt sieve (Chain.mentions.sweep sieve state.1 i) i) ∧
      Chain.mentions.pass state.1 sieve = sc' := by
  unfold passMentions
  split
  next skipped =>
    -- without a scorer the supervised sieve has nothing to say
    obtain ⟨rfl, unscored⟩ := skipped
    have goes (sc : Scene S) (i : Nat) : ¬StopsAt .supervised sc i := by
      rintro ⟨-, stopped⟩
      cases (QuoteSieve.resolve_eq_error stopped).1
    have silent : Chain.mentions.pass state.1 .supervised = state.1 := by
      refine Chain.sweep_of_silent _ (List.forall_mem_singleton.mpr fun i _ _ _ => ?_) _
      show (QuoteSieve.supervised.resolve? state.1 i).map _ = none
      rw [Option.map_eq_none_iff, QuoteSieve.resolve?, QuoteSieve.resolve]
      cases state.1.doc.quotes[i]? with
      | none => rfl
      | some q => simp only [bestCandidate?, Option.isNone_iff_eq_none.mp unscored]
    simp [Except.map, goes, silent]
  next =>
    refine Iff.trans ?_ (foldlM_sieveMention_eq_ok_iff (state.1, 0) state.1.doc.quotes.length)
    cases (List.range state.1.doc.quotes.length).foldlM (sieveMention sieve) (state.1, 0) <;> rfl

theorem passMentions_eq_error {state : Scene S × Table String Nat}
    (stopped : passMentions state sieve = .error stop) : stop = .overflow := by
  unfold passMentions at stopped
  split at stopped
  next => cases stopped
  next =>
    cases outcome : (List.range state.1.doc.quotes.length).foldlM (sieveMention sieve)
        (state.1, 0) with
    | error stop' =>
      rw [outcome] at stopped
      cases stopped
      obtain ⟨i, -, state', stopped⟩ := exists_mem_of_foldlM_eq_error outcome
      exact sieveMention_eq_error stopped
    | ok swept =>
      rw [outcome] at stopped
      cases stopped

/-- Where the sieves get over all quotations, they do what the chain of mentions does. -/
theorem foldlM_passMentions_eq_ok_iff {state : Scene S × Table String Nat}
    {sieves : List QuoteSieve} :
    (sieves.foldlM passMentions state).map Prod.fst = .ok sc' ↔
      state.1.Passable sieves ∧ Chain.mentions.run state.1 sieves = sc' := by
  induction sieves generalizing state sc' with
  | nil => simp [Except.map, pure, Except.pure, Passable, Chain.run]
  | cons sieve rest ih =>
    let passed (before after : Scene S) : Prop :=
      before.Passable rest ∧ Chain.mentions.run before rest = after
    rw [List.foldlM_cons, map_bind_eq_ok_iff Prod.fst Prod.fst passed fun _ _ => ih, Passable]
    constructor
    · rintro ⟨next, first, passable, run⟩
      obtain ⟨goes, rfl⟩ := passMentions_eq_ok_iff.mp first
      exact ⟨⟨goes, passable⟩, run⟩
    · rintro ⟨⟨goes, passable⟩, run⟩
      exact ⟨_, passMentions_eq_ok_iff.mpr ⟨goes, rfl⟩, passable, run⟩

/-- The scene once some sieves have gone over all quotations. -/
def mentionedBy (sc : Scene S) (ran : List QuoteSieve) : Except Stop (Scene S) :=
  (ran.foldlM passMentions (sc, {})).map Prod.fst

theorem mentionedBy_eq_ok_iff {ran : List QuoteSieve} :
    sc.mentionedBy ran = .ok sc' ↔ sc.Passable ran ∧ Chain.mentions.run sc ran = sc' :=
  foldlM_passMentions_eq_ok_iff

/-- Where they do not, a sum was too large. -/
theorem foldlM_passMentions_eq_error_iff {state : Scene S × Table String Nat}
    {sieves : List QuoteSieve} :
    sieves.foldlM passMentions state = .error stop ↔
      ¬state.1.Passable sieves ∧ stop = .overflow := by
  cases outcome : sieves.foldlM passMentions state with
  | ok last =>
    have passable := (foldlM_passMentions_eq_ok_iff.mp (map_eq_ok_iff.mpr ⟨last, outcome, rfl⟩)).1
    simp [passable]
  | error stop' =>
    obtain ⟨sieve, -, state', stopped⟩ := exists_mem_of_foldlM_eq_error outcome
    cases passMentions_eq_error stopped
    have impassable : ¬state.1.Passable sieves := by
      intro passable
      obtain ⟨last, reached, -⟩ :=
        map_eq_ok_iff.mp (foldlM_passMentions_eq_ok_iff.mpr ⟨passable, rfl⟩)
      rw [outcome] at reached
      cases reached
    simp [impassable, eq_comm]

/-- The sieves of a chain get over all quotations if its first sieves do and then the others. -/
theorem passable_append (before after : List QuoteSieve) :
    sc.Passable (before ++ after) ↔
      sc.Passable before ∧ (Chain.mentions.run sc before).Passable after := by
  induction before generalizing sc with
  | nil => simp [Passable, Chain.run]
  | cons sieve rest ih =>
    rw [List.cons_append, Passable, Passable, ih, and_assoc]
    rfl

/-- If what each visit keeps rules out a stop, the sieves get over all quotations. -/
theorem passable_induction {P : Scene S → Prop} {sieves : List QuoteSieve}
    (visit : ∀ sieve ∈ sieves, ∀ sc i, P sc → P (Chain.mentions.visit sieve sc i))
    (goes : ∀ sieve ∈ sieves, ∀ sc i, P sc → ¬StopsAt sieve sc i) (start : P sc) :
    sc.Passable sieves := by
  induction sieves generalizing sc with
  | nil => trivial
  | cons sieve rest ih =>
    obtain ⟨here, later⟩ := List.forall_mem_cons.mp visit
    have swept (n : Nat) : P (Chain.mentions.sweep sieve sc n) :=
      List.foldlRecOn (motive := P) _ _ start fun now holds i _ => here now i holds
    refine ⟨fun i _ => goes sieve List.mem_cons_self _ i (swept i), ih later ?_ (swept _)⟩
    exact fun sieve' mem => goes sieve' (List.mem_cons_of_mem sieve mem)

/-- Sieves that read no dependencies get over all quotations. -/
theorem passable_of_not_mem {sieves : List QuoteSieve} (absent : .dependency ∉ sieves) :
    sc.Passable sieves := by
  refine passable_induction (P := fun _ => True) (fun _ _ _ _ _ => trivial) ?_ trivial
  intro sieve mem sc' i _ stops
  exact absent ((QuoteSieve.resolve_eq_error stops.2).1 ▸ mem)

theorem passable_of_subjectsFit (fit : sc.doc.SubjectsFit) (sieves : List QuoteSieve) :
    sc.Passable sieves := by
  refine passable_induction (P := Chain.OnlyQuotes sc)
    (fun sieve _ _ i only => only.trans (Chain.onlyQuotes_visit sieve _ i)) ?_ (.refl sc)
  intro sieve _ sc' i only stops
  have unfit := (QuoteSieve.resolve_eq_error stops.2).2.2
  rw [only.rest] at unfit
  exact unfit fit

/-- The scene after both chains. -/
def attributed (sc : Scene S) (quoteSieves : List QuoteSieve)
    (speakerSieves : List SpeakerSieve) : Scene S :=
  Chain.speakers.run (Chain.mentions.run sc quoteSieves) speakerSieves

end Scene

/-! ## The whole attribution -/

namespace Document

section

variable {S : Type} [QuoteScorer S] (doc : Document) (lex : Lexicon)
  (settings : AttributionSettings) (scorer? : Option S)

/-- The document that an attribution leaves. -/
def afterAttribution : Except Stop Document :=
  (doc.attributeQuotes lex settings scorer?).map Prod.fst

/-- The scene of a document after both chains. -/
def sieved : Scene S :=
  (doc.readyForAttribution.scene lex settings scorer?).attributed settings.quoteSieves
    settings.speakerSieves

/-- The sieves get over the quotations of a document. -/
def Passable : Prop :=
  (doc.readyForAttribution.scene lex settings scorer?).Passable settings.quoteSieves

theorem onlyQuotes_sieved :
    Chain.OnlyQuotes (doc.readyForAttribution.scene lex settings scorer?)
      (doc.sieved lex settings scorer?) :=
  (Chain.onlyQuotes_run _ settings.quoteSieves).trans
    (Chain.onlyQuotes_run _ settings.speakerSieves)

variable {doc lex settings scorer?}

theorem afterAttribution_eq_ok_iff {final : Document} :
    doc.afterAttribution lex settings scorer? = .ok final ↔
      ∃ summary, doc.attributeQuotes lex settings scorer? = .ok (final, summary) := by
  rw [afterAttribution, map_eq_ok_iff]
  constructor
  · rintro ⟨⟨_, summary⟩, outcome, rfl⟩
    exact ⟨summary, outcome⟩
  · rintro ⟨summary, outcome⟩
    exact ⟨_, outcome, rfl⟩

/-- What an attribution returns, stage by stage. -/
theorem attributeQuotes_eq_ok_iff {final : Document} {summary : AttributionSummary} :
    doc.attributeQuotes lex settings scorer? = .ok (final, summary) ↔
      ∃ mentioned quoteSieves withCanonical,
        let start := doc.readyForAttribution.scene lex settings scorer?
        let spoken := settings.speakerSieves.foldl Scene.passSpeakers (mentioned, {})
        settings.quoteSieves.foldlM Scene.passMentions (start, {}) = .ok (mentioned, quoteSieves) ∧
        spoken.1.doc.canonicalize = .ok (final, withCanonical) ∧
        summary =
          { quotes := start.doc.quotes.length
            withMention := final.quotes.countP fun q => q.mention?.isSome
            withSpeaker := final.quotes.countP fun q => q.speaker?.isSome
            withCanonical
            quoteSieves
            speakerSieves := spoken.2 } := by
  rw [attributeQuotes, bind_eq_ok_iff]
  constructor
  · rintro ⟨⟨mentioned, quoteSieves⟩, mentions, rest⟩
    obtain ⟨⟨_, withCanonical⟩, last, done⟩ := bind_eq_ok_iff.mp rest
    cases done
    exact ⟨mentioned, quoteSieves, withCanonical, mentions, last, rfl⟩
  · rintro ⟨mentioned, quoteSieves, withCanonical, mentions, last, rfl⟩
    exact ⟨(mentioned, quoteSieves), mentions,
      bind_eq_ok_iff.mpr ⟨(final, withCanonical), last, rfl⟩⟩

/-- Both chains are run, and then each quotation gets its canonical mention. -/
theorem Passable.afterAttribution (passable : doc.Passable lex settings scorer?) :
    doc.afterAttribution lex settings scorer? =
      ((doc.sieved lex settings scorer?).doc.quotes.mapM
          doc.readyForAttribution.canonicalized).map doc.readyForAttribution.withQuotes := by
  have passes : (settings.quoteSieves.foldlM Scene.passMentions
      (doc.readyForAttribution.scene lex settings scorer?, {})).map Prod.fst = .ok _ :=
    Scene.foldlM_passMentions_eq_ok_iff.mpr ⟨passable, rfl⟩
  obtain ⟨⟨mentioned, quoteSieves⟩, mentions, reached⟩ := map_eq_ok_iff.mp passes
  have chains : (settings.speakerSieves.foldl Scene.passSpeakers (mentioned, {})).1 =
      doc.sieved lex settings scorer? := by
    rw [Chain.foldl_passSpeakers, show mentioned = _ from reached]
    rfl
  have frame : (doc.sieved lex settings scorer?).doc =
      doc.readyForAttribution.withQuotes (doc.sieved lex settings scorer?).doc.quotes :=
    congrArg Scene.doc (doc.onlyQuotes_sieved lex settings scorer?).rest
  have last := canonicalize_eq (doc.sieved lex settings scorer?).doc
  rw [frame] at last
  refine Eq.trans ?_ last
  rw [← frame, Document.afterAttribution, attributeQuotes, mentions, ← chains]
  dsimp only [bind, Except.bind]
  cases (settings.speakerSieves.foldl Scene.passSpeakers (mentioned, {})).1.doc.canonicalize <;> rfl

theorem attributeQuotes_of_not_passable (stuck : ¬doc.Passable lex settings scorer?) :
    doc.attributeQuotes lex settings scorer? = .error .overflow := by
  have stopped : settings.quoteSieves.foldlM Scene.passMentions
      (doc.readyForAttribution.scene lex settings scorer?, {}) = .error .overflow :=
    Scene.foldlM_passMentions_eq_error_iff.mpr ⟨stuck, rfl⟩
  rw [attributeQuotes, stopped]
  rfl

/-- An attribution succeeds if the sieves get over all quotations and the last pass goes through. -/
theorem afterAttribution_eq_ok_iff_passable {final : Document} :
    doc.afterAttribution lex settings scorer? = .ok final ↔
      doc.Passable lex settings scorer? ∧
        ((doc.sieved lex settings scorer?).doc.quotes.mapM
          doc.readyForAttribution.canonicalized).map doc.readyForAttribution.withQuotes =
            .ok final := by
  by_cases passable : doc.Passable lex settings scorer?
  · simp [passable, passable.afterAttribution]
  · rw [afterAttribution, attributeQuotes_of_not_passable passable]
    simp [passable, Except.map]

/-- No quotation moves while it is attributed. -/
theorem map_bare_afterAttribution {final : Document}
    (outcome : doc.afterAttribution lex settings scorer? = .ok final) :
    final.quotes.map Quotation.bare = doc.readyForAttribution.quotes.map Quotation.bare := by
  obtain ⟨-, pointwise⟩ :=
    mapM_canonicalized_eq_ok_iff.mp (afterAttribution_eq_ok_iff_passable.mp outcome).2
  exact (map_of_canonicalized (fun _ _ => rfl) pointwise).trans
    ((Chain.map_quotes_run (c := Chain.speakers) (fun _ _ => rfl) settings.speakerSieves _).trans
      (Chain.map_quotes_run (c := Chain.mentions) (fun _ _ => rfl) settings.quoteSieves _))

end

end Document

end Discourse
