import Discourse.Proofs.GoldLink.Place
import Mathlib.Logic.Relation
/-!
# Turning chains round

Each mention refers to one antecedent at most, and mentions are connected if a path of such
references leads from one to the other, in whatever direction each is taken.  Turning one reference
round makes other edges and the same connections, so a chain that is turned until its antecedent
comes no later leaves the connections alone (`turnChain_turned`).  It changes nothing but the
mention it starts at and mentions after that one.
-/

namespace Discourse

open Relation

/-- The edges of a function lead from two connected points to a common one. -/
theorem join_of_eqvGen {α : Type} {r : α → α → Prop}
    (functional : ∀ x y z, r x y → r x z → y = z) {x y : α} (h : EqvGen r x y) :
    Join (ReflTransGen r) x y := by
  have confluent : Equivalence (Join (ReflTransGen r)) := by
    refine equivalence_join_reflTransGen fun x y z hy hz => ⟨z, ?_, .refl⟩
    cases functional x y z hy hz
    exact .refl
  refine confluent.eqvGen_iff.mp (EqvGen.mono ?_ x y h)
  intro x y step
  exact ⟨y, .single step, .refl⟩

namespace LinkState

/-- A mention refers to another at present. -/
def Refers (st : LinkState) (x y : MentionId) : Prop := st.antecedent? x = some y

/-- References lead from one mention to the other, each taken in either direction. -/
def Connected (st : LinkState) : MentionId → MentionId → Prop := EqvGen st.Refers

theorem Refers.connected {st : LinkState} {x y : MentionId} (h : st.Refers x y) :
    st.Connected x y :=
  .rel x y h

theorem Connected.refl (st : LinkState) (x : MentionId) : st.Connected x x :=
  EqvGen.refl x

theorem Connected.symm {st : LinkState} {x y : MentionId} (h : st.Connected x y) :
    st.Connected y x :=
  EqvGen.symm x y h

theorem Connected.trans {st : LinkState} {x y z : MentionId} (h : st.Connected x y)
    (h' : st.Connected y z) : st.Connected x z :=
  EqvGen.trans x y z h h'

theorem Connected.of_refers {st st' : LinkState}
    (le : ∀ x y, st.Refers x y → st'.Connected x y) {x y : MentionId} (h : st.Connected x y) :
    st'.Connected x y := by
  induction h with
  | rel x y step => exact le x y step
  | refl x => exact .refl st' x
  | symm x y _ ih => exact ih.symm
  | trans x y z _ _ ih ih' => exact ih.trans ih'

/-- Each mention refers to one other at most, so connected mentions have a common end. -/
theorem Connected.join {st : LinkState} {x y : MentionId} (h : st.Connected x y) :
    Join (ReflTransGen st.Refers) x y :=
  join_of_eqvGen (fun _ _ _ hy hz => Option.some.inj (hy.symm.trans hz)) h

theorem antecedent?_turn (st : LinkState) (id target x : MentionId) :
    (st.turn id target).antecedent? x =
      if x = target then some id
      else if x = id then st.antecedent? target else st.antecedent? x := by
  simp only [antecedent?, turn, Table.find?_insert]
  split
  · rfl
  · split <;> rfl

/-- The edges between a mention, its antecedent and what that one refers to are other edges after
the turn; the three stay together. -/
theorem connected_turn_iff {st : LinkState} {id target : MentionId} (h : st.Refers id target)
    (ne : target ≠ id) (x y : MentionId) :
    (st.turn id target).Connected x y ↔ st.Connected x y := by
  constructor
  · refine Connected.of_refers fun x y step => ?_
    rw [Refers, antecedent?_turn] at step
    split at step
    next e =>
      cases e
      cases step
      exact h.connected.symm
    next =>
      split at step
      next e =>
        cases e
        exact h.connected.trans (Refers.connected step)
      next => exact Refers.connected step
  · have back : (st.turn id target).Refers target id := by
      simp [Refers, antecedent?_turn]
    refine Connected.of_refers fun x y step => ?_
    by_cases hi : x = id
    · subst hi
      cases h.symm.trans step
      exact back.connected.symm
    · by_cases ht : x = target
      · subst ht
        have on : (st.turn id x).Refers id y := by
          rw [Refers, antecedent?_turn, if_neg ne.symm, if_pos rfl]
          exact step
        exact back.connected.trans on.connected
      · refine Refers.connected ?_
        rw [Refers, antecedent?_turn, if_neg ht, if_neg hi]
        exact step

end LinkState

namespace GoldOrder

/-- What turning at a mention may do: it keeps the connections, the links, and the antecedents of
all but the mention and those after it. -/
structure Turned (order : GoldOrder) (id : MentionId) (st st' : LinkState) : Prop where
  connected : ∀ x y, st'.Connected x y ↔ st.Connected x y
  kept : ∀ x, x ≠ id → ¬ order.Before id x → st'.antecedent? x = st.antecedent? x
  linked : st'.linked = st.linked
  found : st'.found = st.found

variable {order : GoldOrder} {id : MentionId}

theorem Turned.refl (st : LinkState) : order.Turned id st st :=
  ⟨fun _ _ => .rfl, fun _ _ _ => rfl, rfl, rfl⟩

theorem Turned.trans {st st' st'' : LinkState} (h : order.Turned id st st')
    (h' : order.Turned id st' st'') : order.Turned id st st'' where
  connected x y := (h'.connected x y).trans (h.connected x y)
  kept x ne before := (h'.kept x ne before).trans (h.kept x ne before)
  linked := h'.linked.trans h.linked
  found := h'.found.trans h.found

theorem turned_turn {st : LinkState} {target : MentionId} (h : st.Refers id target)
    (later : order.Before id target) : order.Turned id st (st.turn id target) where
  connected := LinkState.connected_turn_iff h fun e => Before.irrefl id (e ▸ later)
  kept := by
    intro x ne before
    have nt : x ≠ target := fun e => before (e ▸ later)
    rw [LinkState.antecedent?_turn, if_neg nt, if_neg ne]
  linked := rfl
  found := rfl

/-- The antecedent comes no later than the mention. -/
def NotLater (order : GoldOrder) (src : Position) (target : MentionId) : Prop :=
  ∃ place, order.positions.find? target = some place ∧ ¬ toLex src < toLex place

theorem position_eq_ok_iff {target : MentionId} {place : Position} :
    order.position target = .ok place ↔ order.positions.find? target = some place := by
  unfold position
  split <;> simp_all

/-- A chain that can be turned ends at an antecedent that comes no later, or at none. -/
theorem turnChain_turned {src : Position} (here : order.positions.find? id = some src)
    {steps : Nat} {met : List MentionId} {target : MentionId} {st st' : LinkState}
    {target? : Option MentionId} (h : st.Refers id target)
    (ok : order.turnChain id src steps met target st = .ok (target?, st')) :
    order.Turned id st st' ∧ st'.antecedent? id = target? ∧
      ∀ t, target? = some t → order.NotLater src t := by
  -- `h` is kept by every turn: the mention then refers to what its antecedent referred to
  induction steps generalizing met target st with
  | zero => cases ok
  | succ steps ih =>
    simp only [turnChain, bind_eq_ok_iff] at ok
    obtain ⟨place, found, ok⟩ := ok
    rw [position_eq_ok_iff] at found
    split at ok
    next notAfter =>
      cases ok
      refine ⟨.refl _, h, ?_⟩
      intro t e
      cases e
      refine ⟨place, found, ?_⟩
      rw [← isEarlier_iff]
      simpa using notAfter
    next after =>
      split at ok
      next => cases ok
      next =>
        have later : order.Before id target := by
          refine ⟨src, place, here, found, ?_⟩
          rw [← isEarlier_iff]
          simpa using after
        have next : (st.turn id target).antecedent? id = st.antecedent? target := by
          have ne : id ≠ target := fun e => Before.irrefl id (e.symm ▸ later)
          rw [LinkState.antecedent?_turn, if_neg ne, if_pos rfl]
        split at ok
        next last =>
          cases ok
          exact ⟨turned_turn h later, next.trans last, nofun⟩
        next further on =>
          obtain ⟨rest, ends⟩ := ih (next.trans on) ok
          exact ⟨(turned_turn h later).trans rest, ends⟩

end GoldOrder

end Discourse
