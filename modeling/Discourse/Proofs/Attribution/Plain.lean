import Discourse.Proofs.Attribution.Chain
/-!
# Sieves that go by the text

Most sieves read the text, the ranges of the quotations and the context, and nothing of what other
quotations have been attributed.  The exceptions follow the turns of a conversation.  A sieve that
goes by the text answers the same on the plain scene, in which no quotation is attributed; on the
way to a speaker it reads the mention of the quotation it is asked about, and that is all.

The best of the names around a quotation goes further: its mention may rule out characters, but it
brings in none, so that where there is nobody to choose from without a mention there is nobody with
one (`SpeakerSieve.read?_eq_none_of_bare`).
-/

namespace Discourse

/-- The scene with no quotation attributed and without lists of sieves. -/
def Scene.plain {S : Type} (sc : Scene S) : Scene S :=
  { sc with
    doc := sc.doc.withQuotes (sc.doc.quotes.map Quotation.bare)
    settings := { sc.settings with quoteSieves := [], speakerSieves := [] } }

/-- The sieves for mentions that follow the turns. -/
def QuoteSieve.followsTurns : QuoteSieve → Bool
  | .conversational => true
  | .looseConversational => true
  | _ => false

/-! ## Sieves for mentions -/

namespace Scene

variable {S : Type} (sc : Scene S) (q : Quotation) (i : Nat)

theorem quote_plain : sc.plain.doc.quotes[i]? = (sc.doc.quotes[i]?).map Quotation.bare :=
  List.getElem?_map

theorem skipPunctuationBack_plain (token : Nat) :
    sc.plain.skipPunctuationBack token = sc.skipPunctuationBack token := by
  induction token with
  | zero => rfl
  | succ token ih =>
    rw [skipPunctuationBack, skipPunctuationBack, ih]
    rfl

theorem trigram?_plain : sc.plain.trigram? q.bare = sc.trigram? q := by
  have before : sc.plain.trigramBefore? q.bare = sc.trigramBefore? q := by
    rw [trigramBefore?, trigramBefore?, skipPunctuationBack_plain]
    rfl
  rw [trigram?, trigram?, before]
  rfl

/-- Who is addressed in a neighbouring quotation is said in its text. -/
theorem vocative?_plain : sc.plain.vocative? q.bare i = sc.vocative? q i := by
  have neighbour (other? : Option Quotation) :
      sc.plain.vocativesOfNeighbour q.bare (other?.map Quotation.bare) =
        sc.vocativesOfNeighbour q other? := by
    cases other? <;> rfl
  have previous : (if i = 0 then none else sc.plain.doc.quotes[i - 1]?) =
      (if i = 0 then none else sc.doc.quotes[i - 1]?).map Quotation.bare := by
    rw [quote_plain]
    split <;> rfl
  rw [vocative?, vocative?, previous, neighbour, quote_plain, neighbour]

end Scene

/-- A sieve that does not follow the turns goes by the text. -/
theorem QuoteSieve.resolve_plain {S : Type} [QuoteScorer S] {sieve : QuoteSieve}
    (text : sieve.followsTurns = false) (sc : Scene S) (i : Nat) :
    sieve.resolve sc.plain i = sieve.resolve sc i := by
  rw [resolve, resolve, sc.quote_plain]
  cases sc.doc.quotes[i]? with
  | none => rfl
  | some q =>
    cases sieve with
    | trigram => exact congrArg Except.ok (sc.trigram?_plain q)
    | vocative => exact congrArg Except.ok (sc.vocative?_plain q i)
    | conversational | looseConversational => cases text
    | selfReference | dependency | oneName | paragraphEnd | supervised | closest => rfl

/-! ## Sieves for speakers -/

/-- The quotation with nothing of its attribution but the mention. -/
def Quotation.mentioned (q : Quotation) : Quotation := { q.bare with mention? := q.mention? }

theorem Quotation.mention?_eq_of_mentioned {q q' : Quotation} (same : q.mentioned = q'.mentioned) :
    q.mention? = q'.mention? :=
  (congrArg Quotation.mention? same : q.mentioned.mention? = q'.mentioned.mention?)

namespace Scene

variable {S : Type} {sc : Scene S} {q : Quotation}

theorem best?_eq_none_iff {α : Type} {better : α → α → Bool} {as : List α} :
    best? better as = none ↔ as = [] := by
  cases as <;> simp [best?]

/-- A candidate is scored, so that there is somebody to choose. -/
theorem topSpeaker?_eq_none_iff : sc.topSpeaker? q = none ↔ sc.speakerCandidates q = [] := by
  rw [topSpeaker?, Option.map_eq_none_iff, best?_eq_none_iff]
  constructor
  · intro unscored
    cases candidates : sc.speakerCandidates q with
    | nil => rfl
    | cons first rest =>
      rw [speakerScores, candidates, List.foldl_cons] at unscored
      refine absurd unscored (List.foldlRecOn (motive := fun t : Table String (Nat × Nat) =>
        t.entries ≠ []) rest _ ?_ fun t _ entry _ => ?_)
      · exact Table.insert_entries_ne_nil _ _ _
      · dsimp only
        split <;> exact Table.insert_entries_ne_nil _ _ _
  · intro nobody
    rw [speakerScores, nobody]
    rfl

/-- A mention demands a gender and so brings in no candidate. -/
theorem speakerCandidates_eq_nil_of_bare (nobody : sc.speakerCandidates q.bare = []) :
    sc.speakerCandidates q = [] := by
  rw [speakerCandidates, List.filterMap_eq_nil_iff] at nobody ⊢
  intro found mem
  have ruledOut := nobody found mem
  dsimp only at ruledOut ⊢
  split
  next => rfl
  next c named =>
    rw [named] at ruledOut
    dsimp only at ruledOut
    split at ruledOut
    next out =>
      rw [Bool.or_eq_true] at out
      refine if_pos (Bool.or_eq_true _ _ ▸ out.imp id fun excluded => ?_)
      simp [demandedGender, Quotation.bare, Gender.excludes] at excluded
    next => cases ruledOut

end Scene

namespace SpeakerSieve

variable {S : Type}

/-- What a sieve that does not follow the turns finds for a quotation. -/
def read? (sieve : SpeakerSieve) (sc : Scene S) (q : Quotation) : Option String :=
  match sieve with
  | .deterministic => sc.deterministic? q
  | .looseConversational => none
  | .topSpeaker => sc.topSpeaker? q
  | .majority => sc.majority?

theorem resolve?_eq_read? {sieve : SpeakerSieve} (text : sieve ≠ .looseConversational)
    (sc : Scene S) (i : Nat) :
    sieve.resolve? sc i = (sc.doc.quotes[i]?).bind (sieve.read? sc) := by
  rw [resolve?]
  cases sc.doc.quotes[i]? with
  | none => rfl
  | some q =>
    cases sieve with
    | looseConversational => exact absurd rfl text
    | deterministic | topSpeaker | majority => rfl

theorem read?_plain (sieve : SpeakerSieve) (sc : Scene S) (q : Quotation) :
    sieve.read? sc.plain q.mentioned = sieve.read? sc q := by
  cases sieve <;> rfl

/-- Only the sieve that goes from the mention to its character says more with a mention. -/
theorem read?_eq_none_of_bare {sieve : SpeakerSieve} (other : sieve ≠ .deterministic)
    {sc : Scene S} {q : Quotation} (silent : sieve.read? sc q.bare = none) :
    sieve.read? sc q = none := by
  cases sieve with
  | deterministic => exact absurd rfl other
  | topSpeaker =>
    exact Scene.topSpeaker?_eq_none_iff.mpr
      (Scene.speakerCandidates_eq_nil_of_bare (Scene.topSpeaker?_eq_none_iff.mp silent))
  | looseConversational | majority => exact silent

end SpeakerSieve

/-! ## Scenes of a run -/

namespace Chain

variable {S σ β : Type} {c : Chain S σ β}

/-- Scenes whose quotations differ in their attribution alone have one plain scene. -/
theorem plain_of_onlyQuotes {sc sc' : Scene S} (only : OnlyQuotes sc sc')
    (bare : sc'.doc.quotes.map Quotation.bare = sc.doc.quotes.map Quotation.bare) :
    sc'.plain = sc.plain := by
  rw [Scene.plain, bare, only.rest]
  rfl

section Attributing

variable (attributes : ∀ q b, (c.fill q b).bare = q.bare)

include attributes

theorem plain_visit (sieve : σ) (sc : Scene S) (i : Nat) : (c.visit sieve sc i).plain = sc.plain :=
  plain_of_onlyQuotes (onlyQuotes_visit sieve sc i) (map_quotes_visit attributes sieve sc i)

theorem plain_run (sc : Scene S) (sieves : List σ) : (c.run sc sieves).plain = sc.plain :=
  plain_of_onlyQuotes (onlyQuotes_run sc sieves) (map_quotes_run attributes sieves sc)

theorem plain_turn (sc : Scene S) (before : List σ) (sieve : σ) (i : Nat) :
    (c.turn sc before sieve i).plain = sc.plain :=
  plain_of_onlyQuotes (onlyQuotes_turn sc before sieve i)
    (map_quotes_turn attributes sc before sieve i)

end Attributing

end Chain

end Discourse
