import Discourse.Proofs.GoldLink.Closure
import Mathlib.Data.Fintype.EquivFin
import Mathlib.Data.Fintype.Sets
/-!
# When the links can be found

The search fails on a reference that leads out of the listed mentions and on a chain that runs into
itself, and on nothing else.  Both are faults of the references as given, although the search meets
them in references that it has turned.

A state is grounded (`GoldOrder.Grounded`) if every reference leads to a listed mention and every
mention leads, reference by reference, to one that refers to nothing.  Turning neither makes nor
breaks that, because it hands the end of a chain on to the mention that referred to its head.  So a
search that starts grounded stays so and meets no fault.  A search that comes to its end is grounded
there, since all references then lead backwards, and hence was grounded from the start
(`GoldOrder.Outcome`).

A chain is walked with a budget of steps.  `GoldOrder.ChainEnds` is the walk without one; what it
has met are different listed mentions, so the budget never runs out (`chainEnds_turnChain`).
-/

namespace Discourse

open Relation

namespace LinkState

/-- References lead from a mention to one that refers to nothing. -/
def Rooted (st : LinkState) (x : MentionId) : Prop :=
  ∃ root, ReflTransGen st.Refers x root ∧ st.antecedent? root = none

/-- A root is the common end of all that is connected to it, so the direction does not matter. -/
theorem rooted_iff_connected {st : LinkState} {x : MentionId} :
    st.Rooted x ↔ ∃ root, st.Connected x root ∧ st.antecedent? root = none := by
  constructor
  · rintro ⟨root, path, ends⟩
    exact ⟨root, EqvGen.reflTransGen_le_eqvGen _ x root path, ends⟩
  · rintro ⟨root, connected, ends⟩
    obtain ⟨z, fromX, fromRoot⟩ := connected.join
    rcases fromRoot.cases_head with rfl | ⟨y, step, -⟩
    · exact ⟨root, fromX, ends⟩
    · cases ends.symm.trans step

theorem Rooted.not_cyclic {st : LinkState} {x : MentionId} (h : st.Rooted x) :
    ¬ TransGen st.Refers x x := by
  obtain ⟨root, path, ends⟩ := h
  induction path using ReflTransGen.head_induction_on with
  | refl =>
    intro cycle
    obtain ⟨y, step, -⟩ := TransGen.head'_iff.mp cycle
    cases ends.symm.trans step
  | head step _ ih =>
    -- the only reference of a mention on a cycle stays on the cycle
    intro cycle
    obtain ⟨y, step', back⟩ := TransGen.head'_iff.mp cycle
    cases step.symm.trans step'
    exact ih (TransGen.tail' back step)

/-- The turned mention gets the end of the chain if its antecedent was the end. -/
theorem rooted_turn_iff {st : LinkState} {id target : MentionId} (h : st.Refers id target)
    (ne : target ≠ id) (x : MentionId) : (st.turn id target).Rooted x ↔ st.Rooted x := by
  have same := connected_turn_iff h ne
  rw [rooted_iff_connected, rooted_iff_connected]
  constructor
  · rintro ⟨root, connected, ends⟩
    rw [antecedent?_turn] at ends
    split at ends
    next => cases ends
    next =>
      rw [same] at connected
      split at ends
      next e => exact ⟨target, connected.trans (e ▸ h.connected), ends⟩
      next => exact ⟨root, connected, ends⟩
  · rintro ⟨root, connected, ends⟩
    by_cases e : root = target
    · subst e
      refine ⟨id, (same x id).mpr (connected.trans h.connected.symm), ?_⟩
      rw [antecedent?_turn, if_neg ne.symm, if_pos rfl]
      exact ends
    · refine ⟨root, (same x root).mpr connected, ?_⟩
      have notId : root ≠ id := fun e => by cases (e ▸ ends).symm.trans h
      rw [antecedent?_turn, if_neg e, if_neg notId]
      exact ends

/-- Where references stay among finitely many mentions and never lead back, all are rooted. -/
theorem rooted_of_acyclic {st : LinkState} {listed : List MentionId}
    (closed : ∀ x y, st.Refers x y → y ∈ listed)
    (acyclic : ∀ x ∈ listed, ¬ TransGen st.Refers x x) (x : MentionId) : st.Rooted x := by
  have listedRooted : ∀ y : {y // y ∈ listed}, st.Rooted y := by
    let follows (z y : {y // y ∈ listed}) : Prop := TransGen st.Refers y z
    have : IsTrans _ follows := ⟨fun _ _ _ h h' => TransGen.trans h' h⟩
    have : Std.Irrefl follows := ⟨fun y => acyclic y.1 y.2⟩
    have wf : WellFounded follows := Finite.wellFounded_of_trans_of_irrefl follows
    intro y
    induction y using wf.induction with
    | _ y ih =>
      cases h : st.antecedent? y.1 with
      | none => exact ⟨y, .refl, h⟩
      | some z =>
        obtain ⟨root, path, ends⟩ := ih ⟨z, closed y z h⟩ (.single h)
        exact ⟨root, path.head h, ends⟩
  cases h : st.antecedent? x with
  | none => exact ⟨x, .refl, h⟩
  | some y =>
    obtain ⟨root, path, ends⟩ := listedRooted ⟨y, closed x y h⟩
    exact ⟨root, path.head h, ends⟩

end LinkState

namespace GoldOrder

variable {order : GoldOrder}

/-- A mention is listed. -/
def Places (order : GoldOrder) (id : MentionId) : Prop :=
  ∃ place, order.positions.find? id = some place

/-! ## Walks without a budget -/

/-- How the walk along the chain of a mention ends, where `met` are the mentions turned so far. -/
inductive ChainEnds (order : GoldOrder) (id : MentionId) :
    List MentionId → MentionId → LinkState → Except Fault (Option MentionId × LinkState) → Prop
  | missing {met target st} (nowhere : ¬ order.Places target) :
      ChainEnds order id met target st (.error (.missingGoldAntecedent target))
  | reached {met target st} (placed : order.Places target) (notLater : ¬ order.Before id target) :
      ChainEnds order id met target st (.ok (some target, st))
  | again {met target st} (later : order.Before id target) (known : target ∈ met) :
      ChainEnds order id met target st (.error (.cyclicGoldChain id))
  | last {met target st} (later : order.Before id target) (new : target ∉ met)
      (ends : st.antecedent? target = none) :
      ChainEnds order id met target st (.ok (none, st.turn id target))
  | further {met target next st result} (later : order.Before id target) (new : target ∉ met)
      (on : st.Refers target next)
      (rest : ChainEnds order id (target :: met) next (st.turn id target) result) :
      ChainEnds order id met target st result

/-- What a walk has met are different listed mentions, so with one step more than there are any the
budget is never what ends it. -/
theorem chainEnds_turnChain (law : order.Lawful) {id : MentionId} {src : Position}
    (here : order.positions.find? id = some src) {steps : Nat} {met : List MentionId}
    (once : met.Nodup) (placed : ∀ m ∈ met, order.Places m)
    (enough : order.listed.length < met.length + steps) (target : MentionId) (st : LinkState) :
    order.ChainEnds id met target st (order.turnChain id src steps met target st) := by
  induction steps generalizing met target st with
  | zero =>
    have few : met.length ≤ (order.listed.map Prod.fst).length := by
      refine (List.subperm_of_subset once fun m mem => ?_).length_le
      exact (law.mem_ids_iff m).mpr (placed m mem)
    rw [List.length_map] at few
    omega
  | succ steps ih =>
    cases found : order.positions.find? target with
    | none =>
      have stop : order.turnChain id src (steps + 1) met target st =
          .error (.missingGoldAntecedent target) := by
        simp [turnChain, position, found, bind, Except.bind]
      rw [stop]
      refine .missing ?_
      rintro ⟨place, there⟩
      cases found.symm.trans there
    | some place =>
      by_cases high : isEarlier src place = true
      · have later : order.Before id target :=
          ⟨src, place, here, found, (isEarlier_iff src place).mp high⟩
        by_cases known : target ∈ met
        · have stop : order.turnChain id src (steps + 1) met target st =
              .error (.cyclicGoldChain id) := by
            simp [turnChain, position, found, bind, Except.bind, throw, throwThe,
              MonadExceptOf.throw, high, known]
          rw [stop]
          exact .again later known
        · cases next? : st.antecedent? target with
          | none =>
            have stop : order.turnChain id src (steps + 1) met target st =
                .ok (none, st.turn id target) := by
              simp [turnChain, position, found, bind, Except.bind, pure, Except.pure, high, known,
                next?]
            rw [stop]
            exact .last later known next?
          | some next =>
            have on : order.turnChain id src (steps + 1) met target st =
                order.turnChain id src steps (target :: met) next (st.turn id target) := by
              rw [turnChain]
              simp [position, found, bind, Except.bind, high, known, next?]
            rw [on]
            refine .further later known next? (ih (List.nodup_cons.mpr ⟨known, once⟩) ?_ ?_ _ _)
            · exact List.forall_mem_cons.mpr ⟨later.placed_right, placed⟩
            · rw [List.length_cons]
              omega
      · have stop : order.turnChain id src (steps + 1) met target st = .ok (some target, st) := by
          simp [turnChain, position, found, bind, Except.bind, pure, Except.pure, high]
        rw [stop]
        refine .reached ⟨place, found⟩ ?_
        rintro ⟨p, q, hp, hq, lt⟩
        cases here.symm.trans hp
        cases found.symm.trans hq
        exact high ((isEarlier_iff src place).mpr lt)

/-! ## Grounded states -/

/-- Every reference leads to a listed mention, and every mention to one that refers to nothing. -/
structure Grounded (order : GoldOrder) (st : LinkState) : Prop where
  rooted : ∀ x, st.Rooted x
  resolved : ∀ x y, st.Refers x y → order.Places y

theorem Grounded.not_refers_self {st : LinkState} (h : order.Grounded st) (x : MentionId) :
    ¬ st.Refers x x :=
  fun step => (h.rooted x).not_cyclic (.single step)

theorem grounded_turn_iff {st : LinkState} {id target : MentionId} (h : st.Refers id target)
    (later : order.Before id target) : order.Grounded (st.turn id target) ↔ order.Grounded st := by
  have ne : target ≠ id := fun e => Before.irrefl id (e ▸ later)
  have rooted := LinkState.rooted_turn_iff h ne
  constructor
  · intro grounded
    refine ⟨fun x => (rooted x).mp (grounded.rooted x), fun x y step => ?_⟩
    by_cases hi : x = id
    · subst hi
      cases h.symm.trans step
      exact later.placed_right
    · by_cases ht : x = target
      · -- what the antecedent referred to is what the mention refers to now
        subst ht
        refine grounded.resolved id y ?_
        rw [LinkState.Refers, LinkState.antecedent?_turn, if_neg ne.symm, if_pos rfl]
        exact step
      · refine grounded.resolved x y ?_
        rw [LinkState.Refers, LinkState.antecedent?_turn, if_neg ht, if_neg hi]
        exact step
  · intro grounded
    refine ⟨fun x => (rooted x).mpr (grounded.rooted x), fun x y step => ?_⟩
    rw [LinkState.Refers, LinkState.antecedent?_turn] at step
    split at step
    next =>
      cases step
      exact later.placed_left
    next =>
      split at step
      next => exact grounded.resolved target y step
      next => exact grounded.resolved x y step

/-- What becomes of a state: it is as grounded at the end as at the start, or it was not grounded and
the fault is one of the two. -/
inductive Outcome (order : GoldOrder) (st : LinkState) : Except Fault LinkState → Prop
  | done {st' : LinkState} (same : order.Grounded st ↔ order.Grounded st') :
      Outcome order st (.ok st')
  | missing {antecedent : MentionId} (not : ¬ order.Grounded st) :
      Outcome order st (.error (.missingGoldAntecedent antecedent))
  | cyclic {id : MentionId} (not : ¬ order.Grounded st) :
      Outcome order st (.error (.cyclicGoldChain id))

theorem Outcome.of_iff {st st' : LinkState} {result : Except Fault LinkState}
    (h : order.Outcome st' result) (same : order.Grounded st ↔ order.Grounded st') :
    order.Outcome st result := by
  cases h with
  | done same' => exact .done (same.trans same')
  | missing not => exact .missing (same.not.mpr not)
  | cyclic not => exact .cyclic (same.not.mpr not)

theorem ChainEnds.outcome {id : MentionId} {met : List MentionId} {target : MentionId}
    {st : LinkState} {result : Except Fault (Option MentionId × LinkState)}
    (h : order.ChainEnds id met target st result) (refers : st.Refers id target) (apart : id ∉ met)
    (back : ∀ m ∈ met, st.Refers m id) : order.Outcome st (result.map Prod.snd) := by
  induction h with
  | missing nowhere => exact .missing fun grounded => nowhere (grounded.resolved _ _ refers)
  | reached => exact .done .rfl
  | again _ known =>
    refine .cyclic fun grounded => (grounded.rooted id).not_cyclic ?_
    exact .tail (.single refers) (back _ known)
  | last later => exact .done (grounded_turn_iff refers later).symm
  | @further met target next st result later new on _ ih =>
    have ne : target ≠ id := fun e => Before.irrefl id (e ▸ later)
    refine Outcome.of_iff (ih ?_ ?_ ?_) (grounded_turn_iff refers later).symm
    · rw [LinkState.Refers, LinkState.antecedent?_turn, if_neg ne.symm, if_pos rfl]
      exact on
    · exact List.not_mem_cons_of_ne_of_not_mem ne.symm apart
    · intro m mem
      rw [LinkState.Refers, LinkState.antecedent?_turn]
      rcases List.mem_cons.mp mem with rfl | mem
      · exact if_pos rfl
      · have notTarget : m ≠ target := fun e => new (e ▸ mem)
        have notId : m ≠ id := fun e => apart (e ▸ mem)
        rw [if_neg notTarget, if_neg notId]
        exact back m mem

theorem grounded_linkTo_iff (st : LinkState) (id target : MentionId) (between : List MentionId) :
    order.Grounded (st.linkTo id target between) ↔ order.Grounded st := by
  have same := LinkState.antecedents_linkTo st id target between
  have rooted : ∀ x, (st.linkTo id target between).Rooted x ↔ st.Rooted x := by
    intro x
    rw [LinkState.Rooted, LinkState.refers_linkTo]
    simp only [LinkState.antecedent?, same, LinkState.Rooted]
  have refers := LinkState.refers_linkTo st id target between
  exact ⟨fun h => ⟨fun x => (rooted x).mp (h.rooted x), refers ▸ h.resolved⟩,
    fun h => ⟨fun x => (rooted x).mpr (h.rooted x), refers.symm ▸ h.resolved⟩⟩

theorem visit_outcome (law : order.Lawful) {id : MentionId} (placed : order.Places id)
    (st : LinkState) : order.Outcome st (order.visit st id) := by
  obtain ⟨src, here⟩ := placed
  unfold visit
  rw [here]
  cases first : st.antecedent? id with
  | none => exact .done .rfl
  | some start =>
    have ends : order.ChainEnds id [] start st
        (order.turnChain id src (order.listed.length + 1) [] start st) :=
      chainEnds_turnChain law here List.nodup_nil (by simp) (by simp) start st
    have outcome := ends.outcome first List.not_mem_nil (by simp)
    dsimp only
    cases turn : order.turnChain id src (order.listed.length + 1) [] start st with
    | error fault =>
      rw [turn] at outcome
      exact outcome
    | ok turned =>
      obtain ⟨target?, mid⟩ := turned
      rw [turn] at outcome
      obtain ⟨-, refers, notLater⟩ := turnChain_turned here first turn
      cases outcome with
      | done same =>
        cases target? with
        | none => exact .done same
        | some target =>
          show order.Outcome st (if target = id then _ else _)
          split
          next e =>
            refine .cyclic fun grounded => ?_
            exact (same.mp grounded).not_refers_self id (e ▸ refers)
          next =>
            obtain ⟨place, there, -⟩ := notLater target rfl
            rw [position_eq_ok_iff.mpr there]
            exact .done (same.trans (grounded_linkTo_iff ..).symm)

theorem run_outcome (law : order.Lawful) {ids : List MentionId}
    (placed : ∀ id ∈ ids, order.Places id) (st : LinkState) :
    order.Outcome st (ids.foldlM order.visit st) := by
  induction ids generalizing st with
  | nil => exact .done .rfl
  | cons id rest ih =>
    obtain ⟨here, placed⟩ := List.forall_mem_cons.mp placed
    have first := visit_outcome law here st
    rw [List.foldlM_cons]
    cases visit : order.visit st id with
    | error fault =>
      rw [visit] at first
      exact first
    | ok st' =>
      rw [visit] at first
      cases first with
      | done same => exact (ih placed st').of_iff same

/-- When all listed mentions are walked every reference leads backwards, so there is no circle. -/
theorem Searched.grounded {given st : LinkState} {done : List MentionId}
    (h : order.Searched given done st) (all : ∀ id, id ∈ done ↔ order.Places id) :
    order.Grounded st := by
  have back : ∀ x y, st.Refers x y → order.Before y x := by
    intro x y step
    exact h.backward x ((all x).mpr (h.placed x y step)) y step
  have resolved : ∀ x y, st.Refers x y → order.Places y := by
    intro x y step
    exact (back x y step).placed_left
  have closed : ∀ x y, st.Refers x y → y ∈ done := by
    intro x y step
    exact (all y).mpr (resolved x y step)
  refine ⟨LinkState.rooted_of_acyclic closed ?_, resolved⟩
  intro x _ cycle
  have earlier : ∀ y, TransGen st.Refers x y → order.Before y x := by
    intro y path
    induction path with
    | single step => exact back x _ step
    | tail _ step ih => exact (back _ _ step).trans ih
  exact Before.irrefl x (earlier x cycle)

end GoldOrder

end Discourse
