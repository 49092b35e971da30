import Discourse.Attribution.Canonical
import Discourse.Proofs.FirstFailure
/-!
# Setting canonical mentions

The last pass of an attribution works on each quotation by itself (`canonicalize_eq`), and nothing
but the mention of the quotation decides what it finds (`canonicalFor_congr`).  It stops only at a
token that points at an entity mention which is not in the list.
-/

namespace Discourse

/-- The quotation with its canonical mention set, if one is found. -/
def Quotation.refer (q : Quotation) (span? : Option TokenSpan) : Quotation :=
  { q with canonical? := span?.or q.canonical? }

namespace Document

variable {doc : Document}

/-- The document with other quotations. -/
def withQuotes (doc : Document) (quotes : List Quotation) : Document := { doc with quotes }

/-- The quotation as the last pass leaves it. -/
def canonicalized (doc : Document) (q : Quotation) : Except Stop Quotation :=
  (doc.canonicalFor q).map q.refer

/-- The last pass goes over the quotations one by one. -/
theorem canonicalize_eq (doc : Document) :
    doc.canonicalize.map Prod.fst = (doc.quotes.mapM doc.canonicalized).map doc.withQuotes := by
  show _ = (doc.quotes.mapM fun q => (doc.canonicalFor q).map q.refer).map _
  rw [mapM_map_zip, canonicalize]
  cases doc.quotes.mapM doc.canonicalFor with
  | error stop => rfl
  | ok found =>
    refine congrArg (fun quotes => Except.ok (doc.withQuotes quotes)) ?_
    refine List.map_congr_left fun (q, span?) _ => ?_
    cases span? <;> rfl

theorem mapM_canonicalized_eq_ok_iff {quotes : List Quotation} {final : Document} :
    (quotes.mapM doc.canonicalized).map doc.withQuotes = .ok final ↔
      final = doc.withQuotes final.quotes ∧
        quotes.map doc.canonicalized = final.quotes.map .ok := by
  rw [map_eq_ok_iff]
  constructor
  · rintro ⟨quotes', mapped, rfl⟩
    exact ⟨rfl, mapM_eq_ok_iff.mp mapped⟩
  · rintro ⟨shape, pointwise⟩
    exact ⟨final.quotes, mapM_eq_ok_iff.mpr pointwise, shape.symm⟩

/-- Whatever setting a canonical mention leaves alone is left alone by the last pass. -/
theorem map_of_canonicalized {γ : Type} {f : Quotation → γ}
    (keeps : ∀ q span?, f (q.refer span?) = f q) {quotes quotes' : List Quotation}
    (pointwise : quotes.map doc.canonicalized = quotes'.map .ok) :
    quotes'.map f = quotes.map f := by
  induction quotes generalizing quotes' with
  | nil =>
    cases quotes' with
    | nil => rfl
    | cons => cases pointwise
  | cons q rest ih =>
    cases quotes' with
    | nil => cases pointwise
    | cons q' rest' =>
      obtain ⟨first, others⟩ := List.cons.inj pointwise
      obtain ⟨span?, -, rfl⟩ := map_eq_ok_iff.mp first
      rw [List.map_cons, List.map_cons, keeps, ih others]

/-- Nothing but the mention of a quotation decides on its canonical mention. -/
theorem canonicalFor_congr {q q' : Quotation} (same : q.mention? = q'.mention?) :
    doc.canonicalFor q = doc.canonicalFor q' := by
  rw [canonicalFor, canonicalFor, same]

/-! ## Success -/

/-- No token points at an entity mention beyond the list. -/
def EntitiesInRange (doc : Document) : Prop :=
  ∀ t ∈ doc.tokens, ∀ place, t.entity? = some place → place < doc.entities.length

instance (doc : Document) : Decidable doc.EntitiesInRange :=
  decidable_of_iff (∀ t ∈ doc.tokens, ∀ place ∈ t.entity?, place < doc.entities.length) Iff.rfl

theorem EntitiesInRange.entityAt? (inRange : doc.EntitiesInRange) {token place : Nat}
    (found : doc.entityAt? token = some place) : place < doc.entities.length := by
  obtain ⟨t, here, points⟩ := Option.bind_eq_some_iff.mp found
  exact inRange t (List.mem_of_getElem? here) place points

theorem EntitiesInRange.entityOfSpan? (inRange : doc.EntitiesInRange) {start stop place : Nat}
    (found : doc.entityOfSpan? start stop = some place) : place < doc.entities.length := by
  rw [Document.entityOfSpan?, Option.orElse_eq_orElse, Option.orElse_eq_or,
    Option.or_eq_some_iff] at found
  rcases found with first | ⟨-, linked⟩
  · exact inRange.entityAt? first
  · obtain ⟨id, -, linked⟩ := Option.bind_eq_some_iff.mp linked
    obtain ⟨other, -, head⟩ := List.exists_of_findSome?_eq_some linked
    obtain ⟨m, -, here⟩ := Option.bind_eq_some_iff.mp head
    exact inRange.entityAt? here

theorem canonicalOf_eq_error_iff {place : Nat} {stop : Stop} :
    doc.canonicalOf place = .error stop ↔ doc.entities.length ≤ place ∧ stop = .outOfRange := by
  rw [canonicalOf]
  cases here : doc.entities[place]? with
  | none => simp [List.getElem?_eq_none_iff.mp here, eq_comm]
  | some e =>
    have inside := (List.getElem?_eq_some_iff.mp here).1
    simp [Nat.not_le_of_lt inside]

/-- The last pass stops at a quotation only if that leads beyond the list of entity mentions. -/
theorem canonicalized_eq_error_iff {q : Quotation} {stop : Stop} :
    doc.canonicalized q = .error stop ↔ stop = .outOfRange ∧
      ∃ m place, q.mention? = some m ∧
        doc.entityOfSpan? m.tokenBegin m.tokenEnd = some place ∧ doc.entities.length ≤ place := by
  rw [canonicalized, map_eq_error_iff, canonicalFor]
  cases mention : q.mention? with
  | none => simp
  | some m =>
    cases span : doc.entityOfSpan? m.tokenBegin m.tokenEnd with
    | none => simp [span]
    | some place => simp [span, canonicalOf_eq_error_iff, and_comm]

theorem EntitiesInRange.mapM_canonicalized (inRange : doc.EntitiesInRange)
    (quotes : List Quotation) : ∃ quotes', quotes.mapM doc.canonicalized = .ok quotes' := by
  cases outcome : quotes.mapM doc.canonicalized with
  | ok quotes' => exact ⟨quotes', rfl⟩
  | error stop =>
    obtain ⟨q, -, fails⟩ := exists_mem_of_mapM_eq_error outcome
    obtain ⟨-, m, place, -, found, outside⟩ := canonicalized_eq_error_iff.mp fails
    have inside := inRange.entityOfSpan? found
    omega

end Document

end Discourse
