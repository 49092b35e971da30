import Discourse.Proofs.Attribution.Course
import Discourse.Proofs.Attribution.Plain
/-!
# What sieves do not look at

No sieve looks at the canonical mentions of the quotations, nor at the lists of sieves in the
settings.  What is left without them is the sketch of a scene.  Sieves answer the same on a scene
and on its sketch, so that a run on the sketch is the sketch of the run (`Chain.run_sketch`), and
two scenes with one sketch are attributed alike.
-/

namespace Discourse

/-- The quotation without its canonical mention. -/
def Quotation.sketch (q : Quotation) : Quotation := { q with canonical? := none }

theorem Quotation.eq_of_sketch {q q' : Quotation} (same : q.sketch = q'.sketch)
    (canonical : q.canonical? = q'.canonical?) : q = q' := by
  cases q
  cases q'
  cases same
  cases canonical
  rfl

/-- The scene without canonical mentions and lists of sieves. -/
def Scene.sketch {S : Type} (sc : Scene S) : Scene S :=
  { sc with
    doc := sc.doc.withQuotes (sc.doc.quotes.map Quotation.sketch)
    settings := { sc.settings with quoteSieves := [], speakerSieves := [] } }

namespace Scene

variable {S : Type} (sc : Scene S) (i : Nat)

theorem quote_sketch : sc.sketch.doc.quotes[i]? = (sc.doc.quotes[i]?).map Quotation.sketch :=
  List.getElem?_map

theorem map_sketch_of_sketch_eq {sc sc' : Scene S} (same : sc.sketch = sc'.sketch) :
    sc.doc.quotes.map Quotation.sketch = sc'.doc.quotes.map Quotation.sketch :=
  congrArg (fun sc => sc.doc.quotes) same

theorem plain_sketch : sc.sketch.plain = sc.plain := by
  have ranges : sc.sketch.doc.quotes.map Quotation.bare = sc.doc.quotes.map Quotation.bare :=
    List.map_map
  rw [plain, ranges]
  rfl

/-! ## Sieves that follow the turns -/

theorem alternates_sketch (a b c : Nat) (strict : Bool) :
    sc.sketch.alternates a b c strict = sc.alternates a b c strict := by
  have paragraph (j : Nat) : sc.sketch.paragraphOfQuote? j = sc.paragraphOfQuote? j := by
    rw [paragraphOfQuote?, quote_sketch, Option.bind_map]
    rfl
  rw [alternates, alternates, paragraph, paragraph, paragraph]

theorem conversational?_sketch (strict : Bool) :
    sc.sketch.conversational? i strict = sc.conversational? i strict := by
  simp only [conversational?, alternates_sketch, quote_sketch, Option.bind_map]
  rfl

theorem loosePartner?_sketch : sc.sketch.loosePartner? i = sc.loosePartner? i := by
  have partner (other between : Nat) :
      sc.sketch.speakerUnless? other between = sc.speakerUnless? other between := by
    rw [speakerUnless?, speakerUnless?, quote_sketch, quote_sketch]
    cases sc.doc.quotes[other]? with
    | none => rfl
    | some q => cases sc.doc.quotes[between]? <;> rfl
  simp only [loosePartner?, alternates_sketch, partner]

end Scene

theorem QuoteSieve.resolve_sketch {S : Type} [QuoteScorer S] (sieve : QuoteSieve) (sc : Scene S)
    (i : Nat) :
    sieve.resolve sc.sketch i = sieve.resolve sc i := by
  cases turns : sieve.followsTurns with
  | false => rw [← resolve_plain turns sc.sketch, sc.plain_sketch, resolve_plain turns]
  | true =>
    rw [resolve, resolve, sc.quote_sketch]
    cases sc.doc.quotes[i]? with
    | none => rfl
    | some q =>
      cases sieve with
      | conversational => exact congrArg Except.ok (sc.conversational?_sketch i true)
      | looseConversational => exact congrArg Except.ok (sc.conversational?_sketch i false)
      | selfReference | trigram | dependency | oneName | vocative | paragraphEnd | supervised
      | closest => cases turns

theorem SpeakerSieve.resolve?_sketch {S : Type} (sieve : SpeakerSieve) (sc : Scene S) (i : Nat) :
    sieve.resolve? sc.sketch i = sieve.resolve? sc i := by
  rw [resolve?, resolve?, sc.quote_sketch]
  cases sc.doc.quotes[i]? with
  | none => rfl
  | some q =>
    cases sieve with
    | looseConversational => exact sc.loosePartner?_sketch i
    | deterministic | topSpeaker | majority => rfl

/-! ## Runs on sketches -/

namespace Chain

variable {S σ β : Type}

/-- A chain that does without canonical mentions and lists of sieves. -/
structure Sketched (c : Chain S σ β) : Prop where
  answer? (sieve : σ) (sc : Scene S) (i : Nat) : c.answer? sieve sc.sketch i = c.answer? sieve sc i
  part? (q : Quotation) : c.part? q.sketch = c.part? q
  fill (q : Quotation) (b : β) : c.fill q.sketch b = (c.fill q b).sketch

theorem sketched_mentions [QuoteScorer S] : (mentions (S := S)).Sketched where
  answer? sieve sc i := by
    show (sieve.resolve? sc.sketch i).map _ = (sieve.resolve? sc i).map _
    rw [QuoteSieve.resolve?, QuoteSieve.resolve?, sieve.resolve_sketch]
  part? _ := rfl
  fill _ _ := rfl

theorem sketched_speakers : (speakers (S := S)).Sketched where
  answer? sieve sc i := by
    show (sieve.resolve? sc.sketch i).map _ = (sieve.resolve? sc i).map _
    rw [sieve.resolve?_sketch]
  part? _ := rfl
  fill _ _ := rfl

namespace Sketched

variable {c : Chain S σ β} (sketched : c.Sketched)

include sketched

theorem settle_sketch (found? : Option β) (q : Quotation) :
    c.settle found? q.sketch = (c.settle found? q).sketch := by
  unfold settle
  rw [sketched.part?]
  split
  next => exact sketched.fill q _
  next => rfl

theorem visit_sketch (sieve : σ) (sc : Scene S) (i : Nat) :
    c.visit sieve sc.sketch i = (c.visit sieve sc i).sketch := by
  have quotes : (sc.doc.quotes.map Quotation.sketch).modify i
        (c.settle (c.answer? sieve sc i)) =
      (sc.doc.quotes.modify i (c.settle (c.answer? sieve sc i))).map Quotation.sketch := by
    refine List.ext_getElem? fun j => ?_
    rw [List.getElem?_modify, List.getElem?_map, List.getElem?_map, List.getElem?_modify]
    cases sc.doc.quotes[j]? with
    | none => rfl
    | some q =>
      by_cases here : i = j
      · simp [here, sketched.settle_sketch]
      · simp [here]
  rw [visit, sketched.answer?]
  exact congrArg (fun quotes => { sc.sketch with doc := sc.doc.withQuotes quotes }) quotes

theorem sweep_sketch (sieve : σ) (sc : Scene S) (n : Nat) :
    c.sweep sieve sc.sketch n = (c.sweep sieve sc n).sketch := by
  induction n with
  | zero => rfl
  | succ n ih => rw [sweep_succ, sweep_succ, ih, sketched.visit_sketch]

theorem pass_sketch (sc : Scene S) (sieve : σ) :
    c.pass sc.sketch sieve = (c.pass sc sieve).sketch := by
  rw [pass, pass, sketched.sweep_sketch]
  exact congrArg (fun n => (c.sweep sieve sc n).sketch) (List.length_map _)

theorem run_sketch (sc : Scene S) (sieves : List σ) :
    c.run sc.sketch sieves = (c.run sc sieves).sketch := by
  induction sieves generalizing sc with
  | nil => rfl
  | cons sieve rest ih =>
    show c.run (c.pass sc.sketch sieve) rest = _
    rw [sketched.pass_sketch, ih]
    rfl

end Sketched

end Chain

section Attribution

variable {S : Type} [QuoteScorer S]

theorem Scene.stopsAt_sketch {sieve : QuoteSieve} {sc : Scene S} {i : Nat} :
    StopsAt sieve sc.sketch i ↔ StopsAt sieve sc i := by
  rw [StopsAt, StopsAt, hasMention, hasMention, sieve.resolve_sketch, quote_sketch, Option.bind_map]
  rfl

/-- The sieves get over the quotations of a scene if they do so in its sketch. -/
theorem Scene.passable_sketch (sc : Scene S) (sieves : List QuoteSieve) :
    sc.sketch.Passable sieves ↔ sc.Passable sieves := by
  induction sieves generalizing sc with
  | nil => exact Iff.rfl
  | cons sieve rest ih =>
    have length : sc.sketch.doc.quotes.length = sc.doc.quotes.length := List.length_map _
    simp only [Passable, length, ih, Chain.sketched_mentions.pass_sketch,
      Chain.sketched_mentions.sweep_sketch, stopsAt_sketch]

/-- Two scenes with one sketch are attributed alike. -/
theorem Scene.attributed_sketch (sc : Scene S)
    (quoteSieves : List QuoteSieve) (speakerSieves : List SpeakerSieve) :
    (sc.attributed quoteSieves speakerSieves).sketch =
      sc.sketch.attributed quoteSieves speakerSieves := by
  rw [attributed, attributed, Chain.sketched_mentions.run_sketch,
    Chain.sketched_speakers.run_sketch]

end Attribution

end Discourse
