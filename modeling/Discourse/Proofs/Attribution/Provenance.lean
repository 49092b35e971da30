import Discourse.Proofs.Attribution.Cast
import Discourse.Proofs.Attribution.Interference
import Mathlib.Data.List.Basic
/-!
# Where mentions and speakers come from

No sieve makes anything up.  The mention of a quotation is one of the character mentions of the
document, however often it was handed on from quotation to quotation, and the speaker is one of its
characters (`attributeQuotes_sourced`).  The sieves that look at narration find mentions there.

Every sieve is looked at once (`QuoteSieve.resolve?_offers`, `SpeakerSieve.resolve?_knows`), on the
condition that what the quotations already have is in order, since two sieves of each chain repeat
it.  From a visit the invariant goes on to a run.  For a mention that is a name the speaker is its
character, which exists: the entity mention behind the name has made a character of the same name.
-/

namespace Discourse

theorem mem_of_best? {α : Type} {better : α → α → Bool} {xs : List α} {a : α}
    (found : best? better xs = some a) : a ∈ xs := by
  cases xs with
  | nil => cases found
  | cons first rest =>
    cases found
    refine List.foldlRecOn (motive := fun a => a ∈ first :: rest) rest _ List.mem_cons_self ?_
    intro best mem x later
    split
    · exact List.mem_cons_of_mem first later
    · exact mem

namespace Context

variable (ctx : Context)

/-- Whether a resolution stands for one of the character mentions. -/
def Offers (r : Resolution) : Prop := ∃ c ∈ ctx.mentions, c.resolution = r

/-- Whether a resolution stands for one of the character mentions outside every quotation. -/
def Narrates (r : Resolution) : Prop := ∃ c ∈ ctx.narration, c.resolution = r

/-- Whether a name is that of one of the characters. -/
def Knows (name : String) : Prop := ∃ c ∈ ctx.characters, c.name = name

variable {ctx}

theorem mem_narration_iff {c : CharacterMention} :
    c ∈ ctx.narration ↔ c ∈ ctx.mentions ∧ ctx.inQuote c.tokenBegin = false := by
  simp [narration]

theorem Narrates.offers {r : Resolution} (narrates : ctx.Narrates r) : ctx.Offers r := by
  obtain ⟨c, mem, same⟩ := narrates
  exact ⟨c, (mem_narration_iff.mp mem).1, same⟩

theorem mem_of_within {q : Quotation} {c : CharacterMention} (mem : c ∈ ctx.within q) :
    c ∈ ctx.mentions := List.mem_of_mem_filter mem

theorem mem_of_characterFor? {text : String} {c : Character}
    (found : ctx.characterFor? text = some c) : c ∈ ctx.characters := by
  rw [characterFor?, Option.orElse_eq_orElse, Option.orElse_eq_or, Option.or_eq_some_iff] at found
  rcases found with whole | ⟨-, shared⟩
  · exact List.mem_of_find?_eq_some whole
  · exact List.mem_of_find?_eq_some shared

end Context

/-! ## The sieves that choose mentions -/

/-- The keys of the sieves that take a mention from narration. -/
def narrationKeys : List String := ["tri", "dep", "onename", "paraend", "sup", "closest"]

namespace Scene

variable {S : Type} {sc : Scene S} {q : Quotation} {m : CharacterMention} {r : Resolution}

theorem mem_narration_of_inNarration {found? : Option CharacterMention}
    (known : ∀ c, found? = some c → c ∈ sc.context.mentions) (found : sc.inNarration found? = some m) :
    m ∈ sc.context.narration := by
  obtain ⟨here, outside⟩ := Option.filter_eq_some_iff.mp found
  exact Context.mem_narration_iff.mpr ⟨known m here, by simpa using outside⟩

theorem mem_narration_of_startingAt? {token : Nat}
    (found : sc.inNarration (sc.context.startingAt? token) = some m) :
    m ∈ sc.context.narration :=
  mem_narration_of_inNarration (fun _ => List.mem_of_find?_eq_some) found

theorem mem_narration_of_endingAt? {token : Nat}
    (found : sc.inNarration (sc.context.endingAt? token) = some m) :
    m ∈ sc.context.narration :=
  mem_narration_of_inNarration (fun _ => List.mem_of_find?_eq_some) found

theorem mem_narration_of_mentionFrom? {token : Nat} (found : sc.mentionFrom? token = some m) :
    m ∈ sc.context.narration := by
  rw [mentionFrom?, Option.orElse_eq_orElse, Option.orElse_eq_or, Option.or_eq_some_iff] at found
  rcases found with here | ⟨-, behind⟩
  · exact mem_narration_of_startingAt? here
  · split at behind
    · exact mem_narration_of_startingAt? behind
    · cases behind

theorem mem_narration_of_trigramAfter? (found : sc.trigramAfter? q = some m) :
    m ∈ sc.context.narration := by
  rw [trigramAfter?, Option.orElse_eq_orElse, Option.orElse_eq_or, Option.or_eq_some_iff] at found
  rcases found with first | ⟨-, second⟩
  · exact mem_narration_of_mentionFrom? (Option.filter_eq_some_iff.mp first).1
  · split at second
    · exact mem_narration_of_mentionFrom? second
    · cases second

theorem mem_narration_of_trigramBefore? (found : sc.trigramBefore? q = some m) :
    m ∈ sc.context.narration := by
  rw [trigramBefore?] at found
  split at found
  next => cases found
  next last _ =>
    rw [Option.orElse_eq_orElse, Option.orElse_eq_or, Option.or_eq_some_iff] at found
    rcases found with second | ⟨-, first⟩
    · exact mem_narration_of_endingAt? (Option.filter_eq_some_iff.mp second).1
    · split at first
      · exact mem_narration_of_endingAt? first
      · cases first

theorem trigram?_narrates (found : sc.trigram? q = some r) : sc.context.Narrates r := by
  obtain ⟨m, chosen, rfl⟩ := Option.map_eq_some_iff.mp found
  rw [Option.orElse_eq_orElse, Option.orElse_eq_or, Option.or_eq_some_iff] at chosen
  rcases chosen with after | ⟨-, before⟩
  · exact ⟨m, mem_narration_of_trigramAfter? after, rfl⟩
  · exact ⟨m, mem_narration_of_trigramBefore? before, rfl⟩

theorem mem_narration_of_reportingSubject? {graph : DependencyGraph} {offset : Nat}
    {entry : Token × Nat} (found : sc.reportingSubject? graph offset entry = some (.ok m)) :
    m ∈ sc.context.narration := by
  unfold reportingSubject? at found
  dsimp only at found
  split at found
  next => cases found
  next =>
    split at found
    next => cases found
    next =>
      split at found
      next => cases found
      next =>
        obtain ⟨m', covering, same⟩ := Option.map_eq_some_iff.mp found
        cases same
        exact mem_narration_of_inNarration (fun _ => List.mem_of_find?_eq_some) covering

theorem dependency_narrates (found : sc.dependency q = .ok (some r)) : sc.context.Narrates r := by
  dsimp only [dependency] at found
  split at found
  next => cases found
  next chosen subject =>
  obtain ⟨m, rfl, same⟩ := map_eq_ok_iff.mp found
  cases same
  obtain ⟨sentence, -, subject⟩ := List.exists_of_findSome?_eq_some subject
  obtain ⟨s, -, subject⟩ := Option.bind_eq_some_iff.mp subject
  obtain ⟨graph, -, subject⟩ := Option.bind_eq_some_iff.mp subject
  obtain ⟨entry, -, subject⟩ := List.exists_of_findSome?_eq_some subject
  exact ⟨m, mem_narration_of_reportingSubject? subject, rfl⟩

theorem oneName?_narrates (found : sc.oneName? q = some r) : sc.context.Narrates r := by
  rw [oneName?] at found
  split at found
  next =>
    obtain ⟨m, chosen, rfl⟩ := Option.map_eq_some_iff.mp found
    exact ⟨m, List.mem_of_mem_filter (mem_of_best? chosen), rfl⟩
  next => cases found

theorem paragraphEnd?_narrates (found : sc.paragraphEnd? q = some r) : sc.context.Narrates r := by
  rw [paragraphEnd?] at found
  split at found
  next => cases found
  next =>
    split at found
    next =>
      obtain ⟨m, chosen, rfl⟩ := Option.map_eq_some_iff.mp found
      exact ⟨m, List.mem_of_mem_filter (List.mem_of_getLast? chosen), rfl⟩
    next => cases found

theorem mem_nearby_iff {distance : Nat} :
    (distance, m) ∈ sc.nearby q ↔ m ∈ sc.context.narration ∧
      m.distanceTo? q = some distance ∧ distance ≤ sc.settings.window := by
  rw [nearby, List.mem_filterMap]
  constructor
  · rintro ⟨c, narrated, near⟩
    split at near
    next away =>
      split at near
      next close =>
        cases near
        exact ⟨narrated, away, close⟩
      next => cases near
    next => cases near
  · rintro ⟨narrated, away, close⟩
    exact ⟨m, narrated, by simp only [away, if_pos close]⟩

theorem mem_narration_of_nearby {distance : Nat} (mem : (distance, m) ∈ sc.nearby q) :
    m ∈ sc.context.narration := (mem_nearby_iff.mp mem).1

theorem closest?_narrates (found : sc.closest? q = some r) : sc.context.Narrates r := by
  obtain ⟨⟨distance, m⟩, chosen, rfl⟩ := Option.map_eq_some_iff.mp found
  exact ⟨m, mem_narration_of_nearby (mem_of_best? chosen), rfl⟩

theorem bestCandidate?_narrates [QuoteScorer S] (found : sc.bestCandidate? q = some r) :
    sc.context.Narrates r := by
  rw [bestCandidate?] at found
  split at found
  next => cases found
  next =>
    obtain ⟨⟨score, m⟩, chosen, rfl⟩ := Option.map_eq_some_iff.mp found
    obtain ⟨⟨distance, m'⟩, near, same⟩ :=
      List.mem_map.mp (List.mem_of_mem_filter (mem_of_best? chosen))
    cases same
    exact ⟨m', mem_narration_of_nearby near, rfl⟩

theorem selfReference?_offers (found : sc.selfReference? q = some r) : sc.context.Offers r := by
  obtain ⟨m, chosen, rfl⟩ := Option.map_eq_some_iff.mp found
  have inside := List.mem_of_mem_filter (List.mem_of_find?_eq_some chosen)
  exact ⟨m, Context.mem_of_within inside, rfl⟩

theorem mem_of_vocativesOfNeighbour {other? : Option Quotation}
    (mem : m ∈ sc.vocativesOfNeighbour q other?) : m ∈ sc.context.mentions := by
  unfold vocativesOfNeighbour at mem
  split at mem
  next => cases mem
  next =>
    split at mem
    next => cases mem
    next => exact Context.mem_of_within (List.mem_of_mem_filter (List.mem_of_mem_filter mem))

theorem vocative?_offers {i : Nat} (found : sc.vocative? q i = some r) : sc.context.Offers r := by
  obtain ⟨m, chosen, rfl⟩ := Option.map_eq_some_iff.mp found
  rw [Option.orElse_eq_orElse, Option.orElse_eq_or, Option.or_eq_some_iff] at chosen
  rcases chosen with previous | ⟨-, following⟩
  · exact ⟨m, mem_of_vocativesOfNeighbour (List.mem_of_head? previous), rfl⟩
  · exact ⟨m, mem_of_vocativesOfNeighbour (List.mem_of_getLast? following), rfl⟩

/-- What the turns give is what some quotation has. -/
theorem conversational?_cases {i : Nat} {strict : Bool}
    (found : sc.conversational? i strict = some r) :
    ∃ q ∈ sc.doc.quotes, q.resolution? = some r := by
  have held : ∀ {other : Nat}, (sc.doc.quotes[other]?).bind Quotation.resolution? = some r →
      ∃ q ∈ sc.doc.quotes, q.resolution? = some r := by
    intro other found
    obtain ⟨q, here, resolved⟩ := Option.bind_eq_some_iff.mp found
    exact ⟨q, List.mem_of_getElem? here, resolved⟩
  rw [conversational?, Option.orElse_eq_orElse, Option.orElse_eq_or, Option.or_eq_some_iff] at found
  rcases found with back | ⟨-, ahead⟩
  · split at back
    · exact held back
    · cases back
  · split at ahead
    · exact held ahead
    · cases ahead

end Scene

/-- What a sieve chooses is a character mention, and one from narration if the sieve looks there. -/
theorem QuoteSieve.resolve?_offers {S : Type} [QuoteScorer S] {sc : Scene S} {sieve : QuoteSieve}
    {i : Nat} {r : Resolution}
    (held : ∀ q ∈ sc.doc.quotes, ∀ r, q.resolution? = some r → sc.context.Offers r)
    (found : sieve.resolve? sc i = some r) :
    sc.context.Offers r ∧ (sieve.key ∈ narrationKeys → sc.context.Narrates r) := by
  have narrated (narrates : sc.context.Narrates r) :
      sc.context.Offers r ∧ (sieve.key ∈ narrationKeys → sc.context.Narrates r) :=
    ⟨narrates.offers, fun _ => narrates⟩
  have elsewhere (other : sieve.key ∉ narrationKeys) (offers : sc.context.Offers r) :
      sc.context.Offers r ∧ (sieve.key ∈ narrationKeys → sc.context.Narrates r) :=
    ⟨offers, fun key => absurd key other⟩
  have copied {strict : Bool} (found : sc.conversational? i strict = some r) :
      sc.context.Offers r := by
    obtain ⟨q, mem, resolved⟩ := Scene.conversational?_cases found
    exact held q mem r resolved
  rw [QuoteSieve.resolve?_eq_some_iff, QuoteSieve.resolve] at found
  split at found
  next => cases found
  next q _ =>
    cases sieve with
    | dependency => exact narrated (Scene.dependency_narrates found)
    | selfReference =>
      exact elsewhere (by decide) (Scene.selfReference?_offers (Except.ok.inj found))
    | trigram => exact narrated (Scene.trigram?_narrates (Except.ok.inj found))
    | oneName => exact narrated (Scene.oneName?_narrates (Except.ok.inj found))
    | vocative => exact elsewhere (by decide) (Scene.vocative?_offers (Except.ok.inj found))
    | paragraphEnd => exact narrated (Scene.paragraphEnd?_narrates (Except.ok.inj found))
    | supervised => exact narrated (Scene.bestCandidate?_narrates (Except.ok.inj found))
    | conversational => exact elsewhere (by decide) (copied (Except.ok.inj found))
    | looseConversational => exact elsewhere (by decide) (copied (Except.ok.inj found))
    | closest => exact narrated (Scene.closest?_narrates (Except.ok.inj found))

/-! ## The sieves that choose speakers -/

namespace Scene

variable {S : Type} {sc : Scene S} {q : Quotation} {name : String}

theorem characterName?_knows {text : String} (found : sc.characterName? text = some name) :
    sc.context.Knows name := by
  obtain ⟨c, character, rfl⟩ := Option.map_eq_some_iff.mp found
  exact ⟨c, Context.mem_of_characterFor? character, rfl⟩

theorem deterministic?_knows (named : sc.context.NamesKnown)
    (held : ∀ r, q.resolution? = some r → sc.context.Offers r)
    (found : sc.deterministic? q = some name) : sc.context.Knows name := by
  rw [deterministic?] at found
  split at found
  next => cases found
  next m mention =>
    split at found
    next isName =>
      obtain ⟨c, mem, same⟩ := held m.toResolution (by rw [Quotation.resolution?, mention]; rfl)
      have text : c.text = m.text := congrArg Resolution.text same
      have kind : c.kind = .name := (congrArg Resolution.kind same).trans isName
      have known := named c mem kind
      rw [text] at known
      obtain ⟨character, known⟩ := Option.isSome_iff_exists.mp known
      rw [characterName?, known] at found
      cases found
      exact ⟨character, Context.mem_of_characterFor? known, rfl⟩
    next =>
      obtain ⟨id, -, found⟩ := Option.bind_eq_some_iff.mp found
      obtain ⟨other, -, found⟩ := List.exists_of_findSome?_eq_some found
      exact characterName?_knows found

/-- What the turns give is what some quotation has. -/
theorem loosePartner?_cases {i : Nat} (found : sc.loosePartner? i = some name) :
    ∃ q ∈ sc.doc.quotes, ∃ s, q.speaker? = some s ∧ s.name = name := by
  have held : ∀ {other between : Nat}, sc.speakerUnless? other between = some name →
      ∃ q ∈ sc.doc.quotes, ∃ s, q.speaker? = some s ∧ s.name = name := by
    intro other between found
    obtain ⟨q, here, found⟩ := Option.bind_eq_some_iff.mp found
    obtain ⟨s, speaker, found⟩ := Option.bind_eq_some_iff.mp found
    obtain ⟨middle, -, found⟩ := Option.bind_eq_some_iff.mp found
    split at found
    · cases found
    · cases found
      exact ⟨q, List.mem_of_getElem? here, s, speaker, rfl⟩
  rw [loosePartner?, Option.orElse_eq_orElse, Option.orElse_eq_or, Option.or_eq_some_iff] at found
  rcases found with back | ⟨-, ahead⟩
  · split at back
    · exact held back
    · cases back
  · split at ahead
    · exact held ahead
    · cases ahead

theorem mem_speakerCandidates_iff {c : Character} {distance : Nat} {m : CharacterMention} :
    (c, distance, m) ∈ sc.speakerCandidates q ↔
      (distance, m) ∈ sc.nearby q ∧ m.kind = .name ∧ sc.context.characterFor? m.text = some c ∧
        c.name ∉ (sc.vocatives q).filterMap (fun other => sc.characterName? other.text) ∧
        (sc.demandedGender q).excludes c.gender = false := by
  simp only [speakerCandidates, List.mem_filterMap, List.mem_filter, beq_iff_eq]
  constructor
  · rintro ⟨⟨distance', m'⟩, ⟨near, isName⟩, chosen⟩
    dsimp only at chosen
    split at chosen
    next => cases chosen
    next found =>
      split at chosen
      next => cases chosen
      next open? =>
        cases chosen
        refine ⟨near, isName, found, ?_⟩
        simpa using open?
  · rintro ⟨near, isName, found, unaddressed, allowed⟩
    refine ⟨(distance, m), ⟨near, isName⟩, ?_⟩
    dsimp only
    rw [found]
    simpa [allowed] using unaddressed

/-- Whoever has a score is a candidate. -/
theorem exists_mem_speakerCandidates_of_speakerScores {score : Nat × Nat}
    (mem : (name, score) ∈ (sc.speakerScores q).entries) :
    ∃ candidate ∈ sc.speakerCandidates q, candidate.1.name = name := by
  have each : ∀ name score, (sc.speakerScores q).find? name = some score →
      ∃ candidate ∈ sc.speakerCandidates q, candidate.1.name = name := by
    refine List.foldlRecOn (motive := fun t : Table String (Nat × Nat) =>
      ∀ name score, t.find? name = some score →
        ∃ candidate ∈ sc.speakerCandidates q, candidate.1.name = name) _ _ ?_ ?_
    · intro name score found
      rw [Table.find?_empty] at found
      cases found
    · rintro t all ⟨c, distance, m⟩ candidate name score found
      dsimp only at found
      split at found
      all_goals
        rw [Table.find?_insert] at found
        split at found
        next same => exact ⟨_, candidate, same.symm⟩
        next => exact all name score found
  exact each name score ((Table.mem_entries_iff _ _ _).mp mem)

theorem exists_mem_speakerCandidates_of_topSpeaker? (found : sc.topSpeaker? q = some name) :
    ∃ candidate ∈ sc.speakerCandidates q, candidate.1.name = name := by
  obtain ⟨⟨name, score⟩, chosen, rfl⟩ := Option.map_eq_some_iff.mp found
  exact exists_mem_speakerCandidates_of_speakerScores (mem_of_best? chosen)

theorem topSpeaker?_knows (found : sc.topSpeaker? q = some name) : sc.context.Knows name := by
  obtain ⟨⟨c, distance, m⟩, candidate, named⟩ := exists_mem_speakerCandidates_of_topSpeaker? found
  obtain ⟨-, -, character, -⟩ := mem_speakerCandidates_iff.mp candidate
  exact ⟨c, Context.mem_of_characterFor? character, named⟩

theorem majority?_knows (found : sc.majority? = some name) : sc.context.Knows name := by
  obtain ⟨⟨name, count⟩, chosen, rfl⟩ := Option.map_eq_some_iff.mp found
  obtain ⟨c, mem, same⟩ := List.mem_map.mp (List.mem_of_mem_filter (mem_of_best? chosen))
  cases same
  exact ⟨c, mem, rfl⟩

end Scene

/-- What a sieve chooses is the name of a character. -/
theorem SpeakerSieve.resolve?_knows {S : Type} {sc : Scene S} {sieve : SpeakerSieve} {i : Nat}
    {name : String} (named : sc.context.NamesKnown)
    (held : ∀ q ∈ sc.doc.quotes, ∀ r, q.resolution? = some r → sc.context.Offers r)
    (spoken : ∀ q ∈ sc.doc.quotes, ∀ s, q.speaker? = some s → sc.context.Knows s.name)
    (found : sieve.resolve? sc i = some name) : sc.context.Knows name := by
  rw [SpeakerSieve.resolve?] at found
  split at found
  next => cases found
  next q here =>
    cases sieve with
    | deterministic =>
      exact Scene.deterministic?_knows named (held q (List.mem_of_getElem? here)) found
    | looseConversational =>
      obtain ⟨q', mem, s, speaker, rfl⟩ := Scene.loosePartner?_cases found
      exact spoken q' mem s speaker
    | topSpeaker => exact Scene.topSpeaker?_knows found
    | majority => exact Scene.majority?_knows found

/-! ## Runs -/

/-- A quotation whose mention and speaker come from a context. -/
structure Quotation.Sourced (ctx : Context) (q : Quotation) : Prop where
  offered : ∀ m, q.mention? = some m → ctx.Offers m.toResolution
  narrated : ∀ m, q.mention? = some m → m.sieve ∈ narrationKeys → ctx.Narrates m.toResolution
  known : ∀ s, q.speaker? = some s → ctx.Knows s.name

theorem Quotation.Sourced.resolution? {ctx : Context} {q : Quotation} (sourced : q.Sourced ctx)
    {r : Resolution} (resolved : q.resolution? = some r) : ctx.Offers r := by
  obtain ⟨m, mention, rfl⟩ := Option.map_eq_some_iff.mp resolved
  exact sourced.offered m mention

namespace Chain

variable {S σ β : Type} {c : Chain S σ β}

/-- What holds of all quotations goes on to hold if it holds of each one that is filled. -/
theorem forall_quotes_visit {P : Quotation → Prop} {sieve : σ} {sc : Scene S} {i : Nat}
    (fill : ∀ q b, P q → c.answer? sieve sc i = some b → P (c.fill q b))
    (all : ∀ q ∈ sc.doc.quotes, P q) : ∀ q ∈ (c.visit sieve sc i).doc.quotes, P q := by
  intro q mem
  obtain ⟨j, here⟩ := List.getElem?_of_mem mem
  rw [quote_visit] at here
  split at here
  next =>
    obtain ⟨q', before, rfl⟩ := Option.map_eq_some_iff.mp here
    have sound := all q' (List.mem_of_getElem? before)
    unfold settle
    split
    next answer => exact fill q' _ sound answer
    next => exact sound
  next => exact all q (List.mem_of_getElem? here)

theorem sourced_run_mentions [QuoteScorer S] (sieves : List QuoteSieve) {sc : Scene S}
    (all : ∀ q ∈ sc.doc.quotes, q.Sourced sc.context) :
    ∀ q ∈ (mentions.run sc sieves).doc.quotes, q.Sourced sc.context := by
  have invariant : (mentions.run sc sieves).context = sc.context ∧
      ∀ q ∈ (mentions.run sc sieves).doc.quotes, q.Sourced sc.context := by
    refine run_induction (P := fun now : Scene S => now.context = sc.context ∧
      ∀ q ∈ now.doc.quotes, q.Sourced sc.context) sieves ?_ ⟨rfl, all⟩
    rintro sieve - now i ⟨context, all⟩
    rw [← context] at all ⊢
    refine ⟨rfl, forall_quotes_visit ?_ all⟩
    intro q m sourced answer
    obtain ⟨r, resolved, rfl⟩ := Option.map_eq_some_iff.mp answer
    obtain ⟨offers, narrates⟩ := QuoteSieve.resolve?_offers
      (fun q mem _ => (all q mem).resolution?) resolved
    refine ⟨?_, ?_, sourced.known⟩
    · intro m' same
      cases same
      exact offers
    · intro m' same key
      cases same
      exact narrates key
  exact invariant.2

theorem sourced_run_speakers (sieves : List SpeakerSieve) {sc : Scene S}
    (named : sc.context.NamesKnown) (all : ∀ q ∈ sc.doc.quotes, q.Sourced sc.context) :
    ∀ q ∈ (speakers.run sc sieves).doc.quotes, q.Sourced sc.context := by
  have invariant : (speakers.run sc sieves).context = sc.context ∧
      ∀ q ∈ (speakers.run sc sieves).doc.quotes, q.Sourced sc.context := by
    refine run_induction (P := fun now : Scene S => now.context = sc.context ∧
      ∀ q ∈ now.doc.quotes, q.Sourced sc.context) sieves ?_ ⟨rfl, all⟩
    rintro sieve - now i ⟨context, all⟩
    rw [← context] at named all ⊢
    refine ⟨rfl, forall_quotes_visit ?_ all⟩
    intro q s sourced answer
    obtain ⟨name, resolved, rfl⟩ := Option.map_eq_some_iff.mp answer
    have knows := SpeakerSieve.resolve?_knows named (fun q mem _ => (all q mem).resolution?)
      (fun q mem => (all q mem).known) resolved
    refine ⟨sourced.offered, sourced.narrated, ?_⟩
    intro s' same
    cases same
    exact knows
  exact invariant.2

end Chain

/-! ## Documents -/

/-- A quotation without mention and speaker. -/
def Quotation.Unattributed (q : Quotation) : Prop := q.mention? = none ∧ q.speaker? = none

theorem Quotation.Unattributed.sourced {q : Quotation} (unattributed : q.Unattributed)
    (ctx : Context) : q.Sourced ctx := by
  obtain ⟨mention, speaker⟩ := unattributed
  refine ⟨?_, ?_, ?_⟩
  · intro m given
    rw [mention] at given
    cases given
  · intro m given
    rw [mention] at given
    cases given
  · intro s given
    rw [speaker] at given
    cases given

namespace Document

/-- Quotations that owe their mentions and speakers to a context. -/
structure Sourced (doc : Document) (ctx : Context) : Prop where
  /-- Every mention is one of the character mentions. -/
  mention : ∀ q ∈ doc.quotes, ∀ m, q.mention? = some m → ctx.Offers m.toResolution
  /-- What a sieve has found in narration begins outside every quotation. -/
  outside : ∀ q ∈ doc.quotes, ∀ m, q.mention? = some m → m.sieve ∈ narrationKeys →
    ∀ q' ∈ doc.quotes, q'.containsToken m.tokenBegin = false
  /-- Every speaker is one of the characters. -/
  speaker : ∀ q ∈ doc.quotes, ∀ s, q.speaker? = some s → ctx.Knows s.name

theorem unattributed_quotesOrDetected {doc : Document}
    (unattributed : ∀ q ∈ doc.quotes, q.Unattributed) :
    ∀ q ∈ doc.quotesOrDetected, q.Unattributed := by
  intro q mem
  rw [quotesOrDetected] at mem
  split at mem
  next =>
    obtain ⟨range, -, rfl⟩ := List.mem_map.mp mem
    exact ⟨rfl, rfl⟩
  next => exact unattributed q mem

theorem sourced_sieved {S : Type} [QuoteScorer S] {doc : Document} (lex : Lexicon)
    (settings : AttributionSettings) (scorer? : Option S)
    (unattributed : ∀ q ∈ doc.quotes, q.Unattributed) :
    ∀ q ∈ (doc.sieved lex settings scorer?).doc.quotes,
      q.Sourced (doc.readyForAttribution.context lex) := by
  have start : ∀ q ∈ doc.readyForAttribution.quotes,
      q.Sourced (doc.readyForAttribution.context lex) := by
    intro q mem
    rw [readyForAttribution_eq] at mem
    exact (unattributed_quotesOrDetected unattributed q mem).sourced _
  let sc := doc.readyForAttribution.scene lex settings scorer?
  have supplied : ∀ q ∈ sc.doc.quotes, q.Sourced sc.context := start
  have mentioned := Chain.sourced_run_mentions settings.quoteSieves supplied
  have context : (Chain.mentions.run sc settings.quoteSieves).context = sc.context := by
    rw [(Chain.onlyQuotes_run (c := Chain.mentions) sc settings.quoteSieves).rest]
  rw [← context] at mentioned
  have spoken := Chain.sourced_run_speakers settings.speakerSieves
    (by rw [context]; exact doc.readyForAttribution.namesKnown_context lex) mentioned
  rw [context] at spoken
  exact spoken

section Run

variable {S : Type} [QuoteScorer S] {doc final : Document} {lex : Lexicon}
  {settings : AttributionSettings} {scorer? : Option S}

/-- The last pass leaves mentions and speakers alone. -/
theorem sourced_afterAttribution (unattributed : ∀ q ∈ doc.quotes, q.Unattributed)
    (outcome : doc.afterAttribution lex settings scorer? = .ok final) :
    ∀ q ∈ final.quotes, q.Sourced (doc.readyForAttribution.context lex) := by
  obtain ⟨-, pointwise⟩ :=
    mapM_canonicalized_eq_ok_iff.mp (afterAttribution_eq_ok_iff_passable.mp outcome).2
  have kept := map_of_canonicalized (f := fun q => (q.mention?, q.speaker?)) (fun _ _ => rfl)
    pointwise
  intro q mem
  obtain ⟨i, here⟩ := List.getElem?_of_mem mem
  obtain ⟨q', there, same⟩ := exists_getElem?_of_map_eq kept here
  obtain ⟨mention, speaker⟩ := Prod.mk.inj same
  obtain ⟨offered, narrated, known⟩ :=
    sourced_sieved lex settings scorer? unattributed q'
      (List.mem_of_getElem? there)
  exact ⟨mention ▸ offered, mention ▸ narrated, speaker ▸ known⟩

/-- If no quotation comes with an attribution, all mentions are character mentions of the document
and all speakers are characters of it; and if the entity mentions begin inside the document, the
sieves that look at narration find mentions outside every quotation. -/
theorem attributeQuotes_sourced {summary : AttributionSummary}
    (unattributed : ∀ q ∈ doc.quotes, q.Unattributed) (inside : doc.EntitiesBeginInside)
    (outcome : doc.attributeQuotes lex settings scorer? = .ok (final, summary)) :
    final.Sourced (doc.readyForAttribution.context lex) := by
  have shape : doc.afterAttribution lex settings scorer? = .ok final :=
    map_eq_ok_iff.mpr ⟨_, outcome, rfl⟩
  have sourced := sourced_afterAttribution unattributed shape
  refine ⟨fun q mem => (sourced q mem).offered, ?_, fun q mem => (sourced q mem).known⟩
  intro q mem m given key q' other
  obtain ⟨c, narrated, same⟩ := (sourced q mem).narrated m given key
  obtain ⟨listed, outside⟩ := Context.mem_narration_iff.mp narrated
  have begins := inside.readyForAttribution.characterMentions listed
  obtain ⟨i, here⟩ := List.getElem?_of_mem other
  obtain ⟨q₀, there, bare⟩ := exists_getElem?_of_map_eq (map_bare_afterAttribution shape) here
  have away := not_containsToken_of_inQuote_eq_false begins outside q₀ (List.mem_of_getElem? there)
  rw [← congrArg Resolution.tokenBegin same]
  show q'.bare.containsToken c.tokenBegin = false
  rw [bare]
  exact away

end Run

/-- A name in the narration behind a quotation is its mention. -/
theorem attributeQuotes_sourced_named :
    let joe : EntityMention := ⟨"Joe", 0, 4, 5, "PERSON", none⟩
    let tokens := [Token.ofWord "\"" ":", Token.ofWord "Yes" "UH", Token.ofWord "\"" ":",
      Token.ofWord "said" "VBD", Token.ofWord "Joe" "NNP"]
    let doc := { ofSentences "" [{ tokens }] with
      quotes := [⟨0, "\" Yes \"", none, none, 0, 3, 0, 0, none, none, none⟩], entities := [joe] }
    let scorer? : Option Scorer := none
    (∀ q ∈ doc.quotes, q.Unattributed) ∧ doc.EntitiesBeginInside ∧ ∃ final summary,
      doc.attributeQuotes default .default scorer? = .ok (final, summary) ∧
        final.Sourced (doc.readyForAttribution.context default) ∧
        final.quotes.map Quotation.resolution? = [some ⟨"Joe", 4, 5, .name⟩] := by
  intro joe tokens doc scorer?
  have unattributed : ∀ q ∈ doc.quotes, q.Unattributed := by
    rintro q (_ | ⟨_, ⟨⟩⟩)
    exact ⟨rfl, rfl⟩
  have inside : doc.EntitiesBeginInside := by
    unfold EntitiesBeginInside
    decide
  have found : ((doc.attributeQuotes default .default scorer?).map fun result =>
      result.1.quotes.map Quotation.resolution?) = .ok [some ⟨"Joe", 4, 5, .name⟩] := by
    decide +kernel
  obtain ⟨⟨final, summary⟩, outcome, mentions⟩ := map_eq_ok_iff.mp found
  exact ⟨unattributed, inside, final, summary, outcome,
    attributeQuotes_sourced unattributed inside outcome, mentions⟩

end Document

end Discourse
