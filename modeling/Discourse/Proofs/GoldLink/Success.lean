import Discourse.Proofs.GoldLink.Grounded
/-!
# When extraction succeeds

The first extraction of the gold links succeeds exactly if every antecedent is a listed gold mention
and no gold mention leads back to itself.  Whatever else the antecedents are — a circle far behind
the mention that leads into it, or one that closes only when a chain has been turned — it ends with
one of two faults, and every chain it follows comes to an end.
-/

namespace Discourse

open Relation

namespace Document

variable {doc : Document}

/-- Every antecedent of a listed gold mention is listed. -/
def GoldResolved (doc : Document) : Prop :=
  ∀ x ∈ doc.goldRows.flatten, ∀ y, doc.RefersTo x y → y ∈ doc.goldRows.flatten

/-- No listed gold mention is reached from itself by following antecedents. -/
def GoldAcyclic (doc : Document) : Prop :=
  ∀ x ∈ doc.goldRows.flatten, ¬ TransGen doc.RefersTo x x

theorem grounded_givenAntecedents_iff (once : doc.goldRows.flatten.Nodup) :
    (GoldOrder.ofRows doc.goldRows).Grounded
        { antecedents := doc.givenAntecedents doc.goldRows.flatten } ↔
      doc.GoldResolved ∧ doc.GoldAcyclic := by
  have given := doc.refers_givenAntecedents_iff doc.goldRows.flatten
  have listed := GoldOrder.Lawful.mem_flatten_iff once
  constructor
  · intro grounded
    have resolved : doc.GoldResolved := by
      intro x mem y step
      exact (listed y).mpr (grounded.resolved x y ((given x y).mpr ⟨mem, step⟩))
    refine ⟨resolved, fun x mem cycle => (grounded.rooted x).not_cyclic ?_⟩
    -- a circle of listed mentions runs in the references that the search starts with
    have lift : ∀ y, TransGen doc.RefersTo x y → y ∈ doc.goldRows.flatten ∧
        TransGen ({ antecedents := doc.givenAntecedents doc.goldRows.flatten } :
          LinkState).Refers x y := by
      intro y path
      induction path with
      | single step => exact ⟨resolved x mem _ step, .single ((given x _).mpr ⟨mem, step⟩)⟩
      | tail _ step ih =>
        obtain ⟨inside, path⟩ := ih
        exact ⟨resolved _ inside _ step, path.tail ((given _ _).mpr ⟨inside, step⟩)⟩
    exact (lift x cycle).2
  · rintro ⟨resolved, acyclic⟩
    have closed : ∀ x y, ({ antecedents := doc.givenAntecedents doc.goldRows.flatten } :
        LinkState).Refers x y → y ∈ doc.goldRows.flatten := by
      intro x y step
      obtain ⟨mem, step⟩ := (given x y).mp step
      exact resolved x mem y step
    refine ⟨LinkState.rooted_of_acyclic closed ?_, fun x y step => (listed y).mp (closed x y step)⟩
    intro x mem cycle
    exact acyclic x mem (TransGen.mono (fun a b step => ((given a b).mp step).2) x x cycle)

theorem search_outcome (once : doc.goldRows.flatten.Nodup) :
    (GoldOrder.ofRows doc.goldRows).Outcome
      { antecedents := doc.givenAntecedents doc.goldRows.flatten }
      ((GoldOrder.ofRows doc.goldRows).search (doc.givenAntecedents doc.goldRows.flatten)) := by
  have law := GoldOrder.lawful_ofRows once
  exact GoldOrder.run_outcome law (fun id mem => (law.mem_ids_iff id).mp mem) _

theorem exists_search_iff (once : doc.goldRows.flatten.Nodup) :
    (∃ st, (GoldOrder.ofRows doc.goldRows).search
        (doc.givenAntecedents doc.goldRows.flatten) = .ok st) ↔
      doc.GoldResolved ∧ doc.GoldAcyclic := by
  rw [← grounded_givenAntecedents_iff once]
  have outcome := search_outcome once
  constructor
  · rintro ⟨st, search⟩
    have final := (searched_of_search once search).grounded (GoldOrder.Lawful.mem_flatten_iff once)
    rw [search] at outcome
    cases outcome with
    | done same => exact same.mpr final
  · intro grounded
    cases search : (GoldOrder.ofRows doc.goldRows).search
        (doc.givenAntecedents doc.goldRows.flatten) with
    | ok st => exact ⟨st, rfl⟩
    | error fault =>
      rw [search] at outcome
      cases outcome with
      | missing not => exact absurd grounded not
      | cyclic not => exact absurd grounded not

/-- A first extraction is a search, also where there are no gold data. -/
theorem extractGoldLinks_of_search (first : doc.goldLinks? = none) :
    (∀ st, (GoldOrder.ofRows doc.goldRows).search
        (doc.givenAntecedents doc.goldRows.flatten) = .ok st →
      ∃ doc', doc.extractGoldLinks = .ok (st.found.reverse, doc')) ∧
    ∀ fault, (GoldOrder.ofRows doc.goldRows).search
        (doc.givenAntecedents doc.goldRows.flatten) = .error fault →
      doc.extractGoldLinks = .error fault := by
  cases rows : doc.gold? with
  | none =>
    have nothing : doc.goldRows = [] := by rw [goldRows, rows, Option.getD_none]
    rw [nothing]
    constructor
    · rintro st search
      cases search
      exact ⟨{ doc with goldLinks? := some [] }, by simp [extractGoldLinks, first, rows]⟩
    · rintro fault search
      cases search
  | some rows' =>
    have same : doc.goldRows = rows' := by rw [goldRows, rows, Option.getD_some]
    rw [same]
    constructor
    · intro st search
      simp only [extractGoldLinks, first, rows, search]
      exact ⟨_, rfl⟩
    · intro fault search
      simp only [extractGoldLinks, first, rows, search]
      rfl

/-- Every walk of a first extraction ends, whatever the references have become by then; the
extraction succeeds exactly if antecedents are listed and lead to no circle, and otherwise says that
one is missing or that a chain is cyclic. -/
theorem extractGoldLinks_ok_iff (first : doc.goldLinks? = none)
    (once : doc.goldRows.flatten.Nodup) :
    (∀ id src, (GoldOrder.ofRows doc.goldRows).positions.find? id = some src → ∀ target st,
      (GoldOrder.ofRows doc.goldRows).ChainEnds id [] target st
        ((GoldOrder.ofRows doc.goldRows).turnChain id src
          ((GoldOrder.ofRows doc.goldRows).listed.length + 1) [] target st)) ∧
    ((∃ links doc', doc.extractGoldLinks = .ok (links, doc')) ↔
      doc.GoldResolved ∧ doc.GoldAcyclic) ∧
    ∀ fault, doc.extractGoldLinks = .error fault →
      (∃ antecedent, fault = .missingGoldAntecedent antecedent) ∨
        ∃ id, fault = .cyclicGoldChain id := by
  obtain ⟨onOk, onFault⟩ := extractGoldLinks_of_search first
  refine ⟨?_, ?_, ?_⟩
  · intro id src here target st
    have law := GoldOrder.lawful_ofRows once
    refine GoldOrder.chainEnds_turnChain law here List.nodup_nil ?_ ?_ _ _
    · exact fun m mem => absurd mem List.not_mem_nil
    · simp
  · rw [← exists_search_iff once]
    constructor
    · rintro ⟨links, doc', ok⟩
      cases search : (GoldOrder.ofRows doc.goldRows).search
          (doc.givenAntecedents doc.goldRows.flatten) with
      | ok st => exact ⟨st, rfl⟩
      | error fault => cases (onFault fault search).symm.trans ok
    · rintro ⟨st, search⟩
      exact ⟨_, onOk st search⟩
  · intro fault failed
    have outcome := search_outcome once
    cases search : (GoldOrder.ofRows doc.goldRows).search
        (doc.givenAntecedents doc.goldRows.flatten) with
    | ok st =>
      obtain ⟨doc', ok⟩ := onOk st search
      cases ok.symm.trans failed
    | error fault' =>
      cases (onFault fault' search).symm.trans failed
      rw [search] at outcome
      cases outcome with
      | missing => exact .inl ⟨_, rfl⟩
      | cyclic => exact .inr ⟨_, rfl⟩

/-- The first mention leads into a circle of three that all come after it. -/
theorem extractGoldLinks_ok_iff_later_circle :
    let doc := ofAntecedents [[(0, some 1), (1, some 2)], [(2, some 3), (3, some 1)]]
    doc.goldLinks? = none ∧ doc.goldRows.flatten.Nodup ∧ ¬ (doc.GoldResolved ∧ doc.GoldAcyclic) ∧
      doc.extractGoldLinks = .error (.cyclicGoldChain 0) := by
  intro doc
  have first : doc.goldLinks? = none := rfl
  have once : doc.goldRows.flatten.Nodup := by decide
  have search : doc.extractGoldLinks.map Prod.fst = .error (.cyclicGoldChain 0) := by
    decide +kernel
  have failed : doc.extractGoldLinks = .error (.cyclicGoldChain 0) := by
    cases found : doc.extractGoldLinks with
    | error fault =>
      rw [found] at search
      cases search
      rfl
    | ok result =>
      rw [found] at search
      cases search
  obtain ⟨-, succeeds, -⟩ := extractGoldLinks_ok_iff first once
  refine ⟨first, once, fun sound => ?_, failed⟩
  obtain ⟨links, doc', ok⟩ := succeeds.mpr sound
  cases failed.symm.trans ok

end Document

end Discourse
