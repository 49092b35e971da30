import Discourse.Attribution.Basic
import Discourse.Proofs.Attribution.Canonical
/-!
# Chains of sieves

The chain that looks for mentions and the chain that looks for speakers work alike, so that both are
taken here as a `Chain`: a sieve gives an answer in view of the scene, and the answer fills one part
of the quotation if that is still empty.

What a run does to one quotation is `quote_run`: it fills the part with the first answer that a
sieve gave when the turn of the quotation came.  The answers themselves depend on what the run has
written to other quotations by then, so that the scene of a turn (`Chain.turn`) is part of the
statement.
-/

namespace Discourse

/-- What a sieve finds for the quotation of an index, if it does not stop there. -/
def QuoteSieve.resolve? {S : Type} [QuoteScorer S] (sieve : QuoteSieve) (sc : Scene S)
    (index : Nat) : Option Resolution :=
  match sieve.resolve sc index with
  | .ok found? => found?
  | .error _ => none

theorem QuoteSieve.resolve?_eq_some_iff {S : Type} [QuoteScorer S] {sieve : QuoteSieve}
    {sc : Scene S} {i : Nat} {r : Resolution} :
    sieve.resolve? sc i = some r ↔ sieve.resolve sc i = .ok (some r) := by
  rw [resolve?]
  cases sieve.resolve sc i <;> simp

/-- A sieve has an answer only for a quotation that is there. -/
theorem QuoteSieve.exists_of_resolve {S : Type} [QuoteScorer S] {sieve : QuoteSieve}
    {sc : Scene S} {i : Nat} {r : Resolution} (found : sieve.resolve sc i = .ok (some r)) :
    ∃ q, sc.doc.quotes[i]? = some q := by
  cases here : sc.doc.quotes[i]? with
  | some q => exact ⟨q, rfl⟩
  | none =>
    rw [resolve, here] at found
    cases found

/-- A chain of sieves, each of which may fill the same part of a quotation. -/
structure Chain (S σ β : Type) where
  /-- What a sieve has to say on the quotation of an index. -/
  answer? : σ → Scene S → Nat → Option β
  /-- The part of a quotation that the chain fills. -/
  part? : Quotation → Option β
  fill : Quotation → β → Quotation
  part?_fill (q : Quotation) (b : β) : part? (fill q b) = some b

namespace Chain

/-- The chain from quotations to mentions. -/
def mentions [QuoteScorer S] : Chain S QuoteSieve QuoteMention where
  answer? sieve sc index :=
    (sieve.resolve? sc index).map fun found => { toResolution := found, sieve := sieve.key }
  part? := Quotation.mention?
  fill q m := { q with mention? := some m }
  part?_fill _ _ := rfl

/-- The chain from mentions to speakers. -/
def speakers : Chain S SpeakerSieve QuoteSpeaker where
  answer? sieve sc index :=
    (sieve.resolve? sc index).map fun name => { name, sieve := sieve.key }
  part? := Quotation.speaker?
  fill q s := { q with speaker? := some s }
  part?_fill _ _ := rfl

variable {S σ β : Type} (c : Chain S σ β)

/-- A quotation with its part filled by an answer, if it is empty and there is one. -/
def settle (found? : Option β) (q : Quotation) : Quotation :=
  match c.part? q, found? with
  | none, some b => c.fill q b
  | _, _ => q

/-- A sieve at one quotation. -/
def visit (sieve : σ) (sc : Scene S) (index : Nat) : Scene S :=
  sc.modifyQuote index (c.settle (c.answer? sieve sc index))

/-- A sieve over the first quotations. -/
def sweep (sieve : σ) (sc : Scene S) (count : Nat) : Scene S :=
  (List.range count).foldl (c.visit sieve) sc

/-- A sieve over all quotations. -/
def pass (sc : Scene S) (sieve : σ) : Scene S := c.sweep sieve sc sc.doc.quotes.length

/-- All sieves in turn. -/
def run (sc : Scene S) (sieves : List σ) : Scene S := sieves.foldl c.pass sc

/-- The scene in which a sieve decides on the quotation of an index, once the sieves before it are
through. -/
def turn (sc : Scene S) (before : List σ) (sieve : σ) (index : Nat) : Scene S :=
  c.sweep sieve (c.run sc before) index

/-- The answer of the first sieve that has one when the turn of the quotation comes. -/
def firstAnswer? (sc : Scene S) (index : Nat) : List σ → Option β
  | [] => none
  | sieve :: rest =>
    (c.answer? sieve (c.sweep sieve sc index) index).or (firstAnswer? (c.pass sc sieve) index rest)

/-! ## One part of a quotation -/

section Settle

@[simp]
theorem settle_none (q : Quotation) : c.settle none q = q := by
  unfold settle
  split
  next none => cases none
  next => rfl

/-- What is filled stays. -/
theorem settle_of_part? {q : Quotation} {b : β} (full : c.part? q = some b) (found? : Option β) :
    c.settle found? q = q := by
  unfold settle
  split
  next empty =>
    rw [full] at empty
    cases empty
  next => rfl

theorem part?_settle (found? : Option β) (q : Quotation) :
    c.part? (c.settle found? q) = (c.part? q).or found? := by
  cases part : c.part? q with
  | some b => rw [settle_of_part? c part, part, Option.some_or]
  | none =>
    cases found? with
    | none => rw [settle_none, part, Option.none_or]
    | some b =>
      simp only [settle, part, Option.none_or]
      exact c.part?_fill q b

theorem settle_settle (first? second? : Option β) (q : Quotation) :
    c.settle second? (c.settle first? q) = c.settle (first?.or second?) q := by
  cases first? with
  | none => rw [settle_none, Option.none_or]
  | some b =>
    have full : c.part? (c.settle (some b) q) = some ((c.part? q).getD b) := by
      rw [part?_settle]
      cases c.part? q <;> rfl
    rw [Option.some_or, settle_of_part? c full]

/-- Whatever filling the part leaves alone is left alone. -/
theorem apply_settle {γ : Type} {f : Quotation → γ} (keeps : ∀ q b, f (c.fill q b) = f q)
    (found? : Option β) (q : Quotation) : f (c.settle found? q) = f q := by
  unfold settle
  split
  next => exact keeps q _
  next => rfl

end Settle

/-! ## One quotation during a run -/

variable {c}

theorem quote_visit (sieve : σ) (sc : Scene S) (i j : Nat) :
    (c.visit sieve sc i).doc.quotes[j]? =
      if j = i then (sc.doc.quotes[j]?).map (c.settle (c.answer? sieve sc i))
      else sc.doc.quotes[j]? := by
  show (sc.doc.quotes.modify i _)[j]? = _
  rw [List.getElem?_modify]
  by_cases same : j = i
  · simp [same]
  · simp [same, Ne.symm same]

theorem sweep_succ (sieve : σ) (sc : Scene S) (n : Nat) :
    c.sweep sieve sc (n + 1) = c.visit sieve (c.sweep sieve sc n) n := by
  rw [sweep, List.range_succ, List.foldl_append]
  rfl

/-- A quotation is left alone until its turn. -/
theorem quote_sweep_of_le (sieve : σ) (sc : Scene S) {n i : Nat} (later : n ≤ i) :
    (c.sweep sieve sc n).doc.quotes[i]? = sc.doc.quotes[i]? := by
  induction n with
  | zero => rfl
  | succ n ih =>
    rw [sweep_succ, quote_visit, if_neg (by omega)]
    exact ih (by omega)

theorem quote_sweep_of_lt (sieve : σ) (sc : Scene S) {n i : Nat} (earlier : i < n) :
    (c.sweep sieve sc n).doc.quotes[i]? =
      (sc.doc.quotes[i]?).map (c.settle (c.answer? sieve (c.sweep sieve sc i) i)) := by
  induction n with
  | zero => cases earlier
  | succ n ih =>
    rw [sweep_succ, quote_visit]
    split
    next same =>
      subst same
      rw [quote_sweep_of_le sieve sc (Nat.le_refl i)]
    next other => exact ih (by omega)

theorem quote_pass (sieve : σ) (sc : Scene S) (i : Nat) :
    (c.pass sc sieve).doc.quotes[i]? =
      (sc.doc.quotes[i]?).map (c.settle (c.answer? sieve (c.sweep sieve sc i) i)) := by
  by_cases inside : i < sc.doc.quotes.length
  · exact quote_sweep_of_lt sieve sc inside
  · have beyond := Nat.le_of_not_lt inside
    rw [pass, quote_sweep_of_le sieve sc beyond, List.getElem?_eq_none beyond, Option.map_none]

theorem run_append (sc : Scene S) (before after : List σ) :
    c.run sc (before ++ after) = c.run (c.run sc before) after := List.foldl_append

/-- What each visit keeps, a run keeps. -/
theorem run_induction {P : Scene S → Prop} (sieves : List σ)
    (visit : ∀ sieve ∈ sieves, ∀ sc i, P sc → P (c.visit sieve sc i)) {sc : Scene S}
    (start : P sc) : P (c.run sc sieves) := by
  refine List.foldlRecOn (motive := P) sieves _ start ?_
  intro sc holds sieve mem
  refine List.foldlRecOn (motive := P) _ _ holds ?_
  intro sc holds i _
  exact visit sieve mem sc i holds

/-- A run fills a quotation with the first answer it gets. -/
theorem quote_run (sieves : List σ) (sc : Scene S) (i : Nat) :
    (c.run sc sieves).doc.quotes[i]? =
      (sc.doc.quotes[i]?).map (c.settle (c.firstAnswer? sc i sieves)) := by
  induction sieves generalizing sc with
  | nil =>
    rw [firstAnswer?, funext (c.settle_none), Option.map_id']
    rfl
  | cons sieve rest ih =>
    show (c.run (c.pass sc sieve) rest).doc.quotes[i]? = _
    rw [ih, quote_pass, Option.map_map, firstAnswer?]
    exact congrArg (Option.map · _) (funext fun q => c.settle_settle _ _ q)

section Kept

variable {γ : Type} {f : Quotation → γ} (keeps : ∀ q b, f (c.fill q b) = f q)

include keeps

theorem map_quotes_visit (sieve : σ) (sc : Scene S) (i : Nat) :
    (c.visit sieve sc i).doc.quotes.map f = sc.doc.quotes.map f := by
  refine List.ext_getElem? fun j => ?_
  rw [List.getElem?_map, List.getElem?_map, quote_visit]
  split
  · rw [Option.map_map]
    exact congrArg (Option.map · _) (funext (c.apply_settle keeps _))
  · rfl

theorem map_quotes_sweep (sieve : σ) (sc : Scene S) (n : Nat) :
    (c.sweep sieve sc n).doc.quotes.map f = sc.doc.quotes.map f := by
  induction n with
  | zero => rfl
  | succ n ih => rw [sweep_succ, map_quotes_visit keeps, ih]

theorem map_quotes_run (sieves : List σ) (sc : Scene S) :
    (c.run sc sieves).doc.quotes.map f = sc.doc.quotes.map f := by
  induction sieves generalizing sc with
  | nil => rfl
  | cons sieve rest ih => exact (ih _).trans (map_quotes_sweep keeps sieve sc _)

theorem map_quotes_turn (sc : Scene S) (before : List σ) (sieve : σ) (i : Nat) :
    (c.turn sc before sieve i).doc.quotes.map f = sc.doc.quotes.map f :=
  (map_quotes_sweep keeps sieve _ i).trans (map_quotes_run keeps before sc)

end Kept

/-! ## The rest of the scene -/

/-- Two scenes with equally many quotations that differ in nothing else. -/
structure OnlyQuotes (sc sc' : Scene S) : Prop where
  rest : sc' = { sc with doc := sc.doc.withQuotes sc'.doc.quotes }
  length : sc'.doc.quotes.length = sc.doc.quotes.length

theorem OnlyQuotes.refl (sc : Scene S) : OnlyQuotes sc sc := ⟨rfl, rfl⟩

theorem OnlyQuotes.trans {sc sc' sc'' : Scene S} (h : OnlyQuotes sc sc')
    (h' : OnlyQuotes sc' sc'') : OnlyQuotes sc sc'' where
  rest := by
    rw [h'.rest, h.rest]
    rfl
  length := h'.length.trans h.length

theorem onlyQuotes_visit (sieve : σ) (sc : Scene S) (i : Nat) :
    OnlyQuotes sc (c.visit sieve sc i) :=
  ⟨rfl, List.length_modify _ _ _⟩

theorem onlyQuotes_sweep (sieve : σ) (sc : Scene S) (n : Nat) :
    OnlyQuotes sc (c.sweep sieve sc n) := by
  induction n with
  | zero => exact .refl sc
  | succ n ih =>
    rw [sweep_succ]
    exact ih.trans (onlyQuotes_visit sieve _ n)

theorem onlyQuotes_run (sc : Scene S) (sieves : List σ) : OnlyQuotes sc (c.run sc sieves) := by
  induction sieves generalizing sc with
  | nil => exact .refl sc
  | cons sieve rest ih => exact (onlyQuotes_sweep sieve sc _).trans (ih _)

theorem onlyQuotes_turn (sc : Scene S) (before : List σ) (sieve : σ) (i : Nat) :
    OnlyQuotes sc (c.turn sc before sieve i) :=
  (onlyQuotes_run sc before).trans (onlyQuotes_sweep sieve _ i)

/-! ## The first answer -/

theorem firstAnswer?_eq_some_iff (sc : Scene S) (i : Nat) (sieves : List σ) (b : β) :
    c.firstAnswer? sc i sieves = some b ↔
      ∃ before sieve after, sieves = before ++ sieve :: after ∧
        c.answer? sieve (c.turn sc before sieve i) i = some b ∧
        ∀ before' sieve' after', before = before' ++ sieve' :: after' →
          c.answer? sieve' (c.turn sc before' sieve' i) i = none := by
  induction sieves generalizing sc with
  | nil => simp [firstAnswer?]
  | cons first rest ih =>
    rw [firstAnswer?, Option.or_eq_some_iff, ih]
    constructor
    · rintro (answer | ⟨silent, before, sieve, after, rfl, answer, earlier⟩)
      · refine ⟨[], first, rest, rfl, answer, fun before' sieve' after' split => ?_⟩
        cases before' <;> cases split
      · refine ⟨first :: before, sieve, after, rfl, answer, fun before' sieve' after' split => ?_⟩
        rcases List.cons_eq_append_iff.mp split with ⟨rfl, next⟩ | ⟨mid, rfl, next⟩
        · obtain ⟨rfl, -⟩ := List.cons.inj next
          exact silent
        · exact earlier mid sieve' after' next
    · rintro ⟨before, sieve, after, split, answer, earlier⟩
      cases before with
      | nil =>
        obtain ⟨rfl, -⟩ := List.cons.inj split
        exact .inl answer
      | cons _ before =>
        obtain ⟨rfl, rfl⟩ := List.cons.inj split
        refine .inr ⟨earlier [] first before rfl, before, sieve, after, rfl, answer, ?_⟩
        intro before' sieve' after' next
        exact earlier (first :: before') sieve' after' (by rw [next]; rfl)

theorem firstAnswer?_eq_none_iff (sc : Scene S) (i : Nat) (sieves : List σ) :
    c.firstAnswer? sc i sieves = none ↔
      ∀ before sieve after, sieves = before ++ sieve :: after →
        c.answer? sieve (c.turn sc before sieve i) i = none := by
  induction sieves generalizing sc with
  | nil => simp [firstAnswer?]
  | cons first rest ih =>
    rw [firstAnswer?, Option.or_eq_none_iff, ih]
    constructor
    · rintro ⟨silent, later⟩ before sieve after split
      cases before with
      | nil =>
        obtain ⟨rfl, -⟩ := List.cons.inj split
        exact silent
      | cons _ before =>
        obtain ⟨rfl, rfl⟩ := List.cons.inj split
        exact later before sieve after rfl
    · intro silent
      refine ⟨silent [] first rest rfl, fun before sieve after split => ?_⟩
      exact silent (first :: before) sieve after (by rw [split]; rfl)

theorem firstAnswer?_eq_none_of_append {sc : Scene S} {i : Nat} {before after : List σ}
    (silent : c.firstAnswer? sc i (before ++ after) = none) :
    c.firstAnswer? sc i before = none := by
  rw [firstAnswer?_eq_none_iff] at silent ⊢
  rintro before' sieve after' rfl
  exact silent before' sieve (after' ++ after) (by rw [List.append_assoc, List.cons_append])

end Chain

namespace Scene

theorem modifyQuote_congr {sc : Scene S} {i : Nat} {f g : Quotation → Quotation}
    (same : ∀ q, sc.doc.quotes[i]? = some q → f q = g q) :
    sc.modifyQuote i f = sc.modifyQuote i g := by
  have quotes : sc.doc.quotes.modify i f = sc.doc.quotes.modify i g := by
    refine List.ext_getElem? fun j => ?_
    rw [List.getElem?_modify, List.getElem?_modify]
    by_cases here : i = j
    · subst here
      cases found : sc.doc.quotes[i]? with
      | none => rfl
      | some q => simp [same q found]
    · simp [here]
  rw [modifyQuote, modifyQuote, quotes]

theorem modifyQuote_of_fixed {sc : Scene S} {i : Nat} {f : Quotation → Quotation}
    (fixed : ∀ q, sc.doc.quotes[i]? = some q → f q = q) : sc.modifyQuote i f = sc := by
  rw [modifyQuote_congr (g := id) fixed, modifyQuote, List.modify_id]

end Scene

namespace Chain

/-- A visit changes nothing where the part is filled and where the sieve has nothing to say. -/
theorem visit_of_quiet (c : Chain S σ β) {sieve : σ} {sc : Scene S} {i : Nat}
    (quiet : ∀ q, sc.doc.quotes[i]? = some q → c.part? q = none → c.answer? sieve sc i = none) :
    c.visit sieve sc i = sc := by
  refine Scene.modifyQuote_of_fixed fun q found => ?_
  cases part : c.part? q with
  | some b => exact c.settle_of_part? part _
  | none => rw [quiet q found part, c.settle_none]

theorem visit_of_full (c : Chain S σ β) {sieve : σ} {sc : Scene S} {i : Nat}
    (full : ((sc.doc.quotes[i]?).bind c.part?).isSome) : c.visit sieve sc i = sc := by
  refine c.visit_of_quiet fun q found empty => ?_
  rw [found, Option.bind_some, empty] at full
  cases full

theorem visit_of_silent (c : Chain S σ β) {sieve : σ} {sc : Scene S} {i : Nat}
    (silent : c.answer? sieve sc i = none) : c.visit sieve sc i = sc :=
  c.visit_of_quiet fun _ _ _ => silent

theorem visit_of_answer (c : Chain S σ β) {sieve : σ} {sc : Scene S} {i : Nat} {b : β}
    (empty : ¬ ((sc.doc.quotes[i]?).bind c.part?).isSome) (answer : c.answer? sieve sc i = some b) :
    c.visit sieve sc i = sc.modifyQuote i fun q => c.fill q b := by
  rw [visit, answer]
  refine Scene.modifyQuote_congr fun q found => ?_
  rw [found, Option.bind_some, Option.not_isSome_iff_eq_none] at empty
  simp only [settle, empty]

/-! ## Runs that change nothing -/

/-- None of the sieves has an answer for a quotation whose part is empty. -/
def Silent (c : Chain S σ β) (sc : Scene S) (sieves : List σ) : Prop :=
  ∀ sieve ∈ sieves, ∀ i q, sc.doc.quotes[i]? = some q → c.part? q = none →
    c.answer? sieve sc i = none

theorem sweep_of_silent (c : Chain S σ β) {sieve : σ} {sc : Scene S} (silent : c.Silent sc [sieve])
    (n : Nat) : c.sweep sieve sc n = sc := by
  induction n with
  | zero => rfl
  | succ n ih =>
    rw [sweep_succ, ih]
    exact c.visit_of_quiet (silent sieve List.mem_cons_self n)

theorem run_of_silent (c : Chain S σ β) {sc : Scene S} {sieves : List σ}
    (silent : c.Silent sc sieves) : c.run sc sieves = sc := by
  induction sieves with
  | nil => rfl
  | cons sieve rest ih =>
    obtain ⟨first, later⟩ := List.forall_mem_cons.mp silent
    have pass : c.pass sc sieve = sc :=
      c.sweep_of_silent (List.forall_mem_singleton.mpr first) _
    show c.run (c.pass sc sieve) rest = sc
    rw [pass]
    exact ih later

/-- Sieves that have no answer when their turn comes leave the scene as it is, and so have none in
that scene either. -/
theorem silent_of_firstAnswer? (c : Chain S σ β) {sc : Scene S} {sieves : List σ}
    (unanswered : ∀ i q, sc.doc.quotes[i]? = some q → c.part? q = none →
      c.firstAnswer? sc i sieves = none) : c.Silent sc sieves := by
  induction sieves with
  | nil => exact fun _ mem => absurd mem List.not_mem_nil
  | cons sieve rest ih =>
    simp only [firstAnswer?, Option.or_eq_none_iff] at unanswered
    have same : ∀ n, c.sweep sieve sc n = sc := by
      intro n
      induction n with
      | zero => rfl
      | succ n ih =>
        rw [sweep_succ, ih]
        refine c.visit_of_quiet fun q found empty => ?_
        have silent := (unanswered n q found empty).1
        rwa [ih] at silent
    refine List.forall_mem_cons.mpr ⟨fun i q found empty => ?_, ih fun i q found empty => ?_⟩
    · have silent := (unanswered i q found empty).1
      rwa [same] at silent
    · have silent := (unanswered i q found empty).2
      rwa [pass, same] at silent

/-! ## The chain of speakers -/

section Speakers

theorem sieveSpeaker_eq (sieve : SpeakerSieve) (state : Scene S × Nat) (i : Nat) :
    (Scene.sieveSpeaker sieve state i).1 = speakers.visit sieve state.1 i := by
  unfold Scene.sieveSpeaker
  split
  next full => exact (visit_of_full speakers full).symm
  next empty =>
    split
    next silent =>
      refine (visit_of_silent speakers ?_).symm
      show (sieve.resolve? state.1 i).map _ = none
      rw [silent, Option.map_none]
    next found answer =>
      refine (visit_of_answer speakers empty ?_).symm
      show (sieve.resolve? state.1 i).map _ = _
      rw [answer, Option.map_some]

theorem foldl_sieveSpeaker (sieve : SpeakerSieve) (state : Scene S × Nat) (n : Nat) :
    ((List.range n).foldl (Scene.sieveSpeaker sieve) state).1 = speakers.sweep sieve state.1 n :=
  (List.foldl_hom Prod.fst fun state i => (sieveSpeaker_eq sieve state i).symm).symm

theorem foldl_passSpeakers (sieves : List SpeakerSieve) (state : Scene S × Table String Nat) :
    (sieves.foldl Scene.passSpeakers state).1 = speakers.run state.1 sieves :=
  (List.foldl_hom Prod.fst fun state sieve =>
    (foldl_sieveSpeaker sieve (state.1, 0) state.1.doc.quotes.length).symm).symm

end Speakers

end Chain

/-! ## What each stage writes to a quotation -/

namespace Quotation

/-- The quotation without its attribution. -/
def bare (q : Quotation) : Quotation :=
  { q with mention? := none, speaker? := none, canonical? := none }

section Stages

variable {S : Type} (q : Quotation)

@[simp]
theorem bare_settle_mentions [QuoteScorer S] (m? : Option QuoteMention) :
    ((Chain.mentions (S := S)).settle m? q).bare = q.bare :=
  Chain.mentions.apply_settle (fun _ _ => rfl) m? q

@[simp]
theorem speaker?_settle_mentions [QuoteScorer S] (m? : Option QuoteMention) :
    ((Chain.mentions (S := S)).settle m? q).speaker? = q.speaker? :=
  Chain.mentions.apply_settle (fun _ _ => rfl) m? q

@[simp]
theorem mention?_settle_mentions [QuoteScorer S] (m? : Option QuoteMention) :
    ((Chain.mentions (S := S)).settle m? q).mention? = q.mention?.or m? :=
  Chain.mentions.part?_settle m? q

@[simp]
theorem bare_settle_speakers (s? : Option QuoteSpeaker) :
    ((Chain.speakers (S := S)).settle s? q).bare = q.bare :=
  Chain.speakers.apply_settle (fun _ _ => rfl) s? q

@[simp]
theorem mention?_settle_speakers (s? : Option QuoteSpeaker) :
    ((Chain.speakers (S := S)).settle s? q).mention? = q.mention? :=
  Chain.speakers.apply_settle (fun _ _ => rfl) s? q

@[simp]
theorem speaker?_settle_speakers (s? : Option QuoteSpeaker) :
    ((Chain.speakers (S := S)).settle s? q).speaker? = q.speaker?.or s? :=
  Chain.speakers.part?_settle s? q

@[simp]
theorem bare_refer (span? : Option TokenSpan) : (q.refer span?).bare = q.bare := rfl

@[simp]
theorem mention?_refer (span? : Option TokenSpan) : (q.refer span?).mention? = q.mention? := rfl

@[simp]
theorem speaker?_refer (span? : Option TokenSpan) : (q.refer span?).speaker? = q.speaker? := rfl

end Stages

end Quotation

end Discourse
