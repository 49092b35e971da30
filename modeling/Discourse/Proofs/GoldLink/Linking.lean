import Discourse.Proofs.GoldLink.Turning
/-!
# Linking a mention

Links are kept twice, by mention and in the order in which they are found, and no link is found
twice (`LinkState.Recorded`).  What one mention gains from being linked to its antecedent is the
antecedent, what stands between the two and has that antecedent too, and all that the antecedent is
linked to; no other mention gains anything (`LinkState.mem_linksOf_linkTo_iff`).
-/

namespace Discourse

namespace LinkState

theorem addLink_of_known {st : LinkState} {id target : MentionId}
    (known : target ∈ st.linksOf id) : st.addLink id target = st := by
  simp [addLink, known]

theorem addLink_of_new {st : LinkState} {id target : MentionId} (new : target ∉ st.linksOf id) :
    st.addLink id target =
      { st with
        linked := st.linked.insert id (st.linksOf id ++ [target])
        found := (id, target) :: st.found } := by
  simp [addLink, new]

theorem antecedents_addLink (st : LinkState) (id target : MentionId) :
    (st.addLink id target).antecedents = st.antecedents := by
  unfold addLink
  split <;> rfl

theorem mem_linksOf_addLink_iff (st : LinkState) (id target x y : MentionId) :
    y ∈ (st.addLink id target).linksOf x ↔ y ∈ st.linksOf x ∨ x = id ∧ y = target := by
  by_cases known : target ∈ st.linksOf id
  · rw [addLink_of_known known]
    constructor
    · exact .inl
    · rintro (mem | ⟨rfl, rfl⟩)
      · exact mem
      · exact known
  · rw [addLink_of_new known]
    by_cases h : x = id
    · subst h
      simp [linksOf]
    · simp [linksOf, Table.find?_insert, h]

/-- The links found are the links of the mentions, each once. -/
structure Recorded (st : LinkState) : Prop where
  found : ∀ x y, (x, y) ∈ st.found ↔ y ∈ st.linksOf x
  once : st.found.Nodup

theorem Recorded.addLink {st : LinkState} (h : st.Recorded) (id target : MentionId) :
    (st.addLink id target).Recorded := by
  by_cases known : target ∈ st.linksOf id
  · rw [addLink_of_known known]
    exact h
  · refine ⟨fun x y => ?_, ?_⟩
    · rw [mem_linksOf_addLink_iff, addLink_of_new known, List.mem_cons, h.found, Prod.mk.injEq,
        or_comm]
    · rw [addLink_of_new known]
      exact List.nodup_cons.mpr ⟨(h.found id target).not.mpr known, h.once⟩

/-- Linking is a row of links of one mention, so what every link preserves is preserved. -/
theorem linkTo_induction {motive : LinkState → Prop} {id : MentionId}
    (step : ∀ st target, motive st → motive (st.addLink id target)) {st : LinkState}
    (start : motive st) (target : MentionId) (between : List MentionId) :
    motive (st.linkTo id target between) := by
  unfold linkTo
  refine List.foldlRecOn _ _ (step _ _ ?_) fun st h other _ => step st other h
  refine List.foldlRecOn _ _ start fun st h other _ => ?_
  unfold addMissed
  split
  · exact step st other h
  · exact h

theorem antecedents_linkTo (st : LinkState) (id target : MentionId) (between : List MentionId) :
    (st.linkTo id target between).antecedents = st.antecedents := by
  refine linkTo_induction (motive := fun st' => st'.antecedents = st.antecedents) ?_ rfl _ _
  intro st' target same
  rw [antecedents_addLink, same]

theorem refers_linkTo (st : LinkState) (id target : MentionId) (between : List MentionId) :
    (st.linkTo id target between).Refers = st.Refers := by
  funext x y
  rw [Refers, antecedent?, antecedents_linkTo]
  rfl

theorem connected_linkTo (st : LinkState) (id target : MentionId) (between : List MentionId) :
    (st.linkTo id target between).Connected = st.Connected := by
  rw [Connected, refers_linkTo]
  rfl

theorem Recorded.linkTo {st : LinkState} (h : st.Recorded) (id target : MentionId)
    (between : List MentionId) : (st.linkTo id target between).Recorded :=
  linkTo_induction (fun _ target h => h.addLink id target) h target between

theorem mem_linksOf_foldl_addLink_iff (id : MentionId) (targets : List MentionId) (st : LinkState)
    (x y : MentionId) :
    y ∈ (targets.foldl (fun s other => s.addLink id other) st).linksOf x ↔
      y ∈ st.linksOf x ∨ x = id ∧ y ∈ targets := by
  induction targets generalizing st with
  | nil => simp
  | cons target rest ih =>
    rw [List.foldl_cons, ih, mem_linksOf_addLink_iff, List.mem_cons, or_assoc, and_or_left]

/-- While the mention is not yet linked to the target, the mentions that are do not change. -/
theorem mem_linksOf_foldl_addMissed_iff {id target : MentionId} (ne : target ≠ id)
    (others : List MentionId) {st : LinkState} (fresh : target ∉ st.linksOf id)
    (apart : target ∉ st.linksOf target) (x y : MentionId) :
    y ∈ (others.foldl (addMissed id target) st).linksOf x ↔
      y ∈ st.linksOf x ∨ x = id ∧ y ∈ others ∧ target ∈ st.linksOf y := by
  induction others generalizing st with
  | nil => simp
  | cons other rest ih =>
    rw [List.foldl_cons]
    by_cases shares : target ∈ st.linksOf other
    · have added : addMissed id target st other = st.addLink id other := by
        simp [addMissed, shares]
      have other_ne : target ≠ other := fun e => apart (e.symm ▸ shares)
      have same : ∀ z, target ∈ (st.addLink id other).linksOf z ↔ target ∈ st.linksOf z := by
        intro z
        simp [mem_linksOf_addLink_iff, other_ne]
      rw [added, ih ((same id).not.mpr fresh) ((same target).not.mpr apart), same,
        mem_linksOf_addLink_iff, List.mem_cons]
      constructor
      · rintro ((mem | ⟨rfl, rfl⟩) | ⟨rfl, mem, shares'⟩)
        · exact .inl mem
        · exact .inr ⟨rfl, .inl rfl, shares⟩
        · exact .inr ⟨rfl, .inr mem, shares'⟩
      · rintro (mem | ⟨rfl, rfl | mem, shares'⟩)
        · exact .inl (.inl mem)
        · exact .inl (.inr ⟨rfl, rfl⟩)
        · exact .inr ⟨rfl, mem, shares'⟩
    · have skipped : addMissed id target st other = st := by
        simp [addMissed, shares]
      rw [skipped, ih fresh apart, List.mem_cons]
      constructor
      · rintro (mem | ⟨rfl, mem, shares'⟩)
        · exact .inl mem
        · exact .inr ⟨rfl, .inr mem, shares'⟩
      · rintro (mem | ⟨rfl, rfl | mem, shares'⟩)
        · exact .inl mem
        · exact absurd shares' shares
        · exact .inr ⟨rfl, mem, shares'⟩

/-- What linking gives to the mentions. -/
theorem mem_linksOf_linkTo_iff {id target : MentionId} (ne : target ≠ id) {st : LinkState}
    (fresh : target ∉ st.linksOf id) (apart : target ∉ st.linksOf target)
    (between : List MentionId) (x y : MentionId) :
    y ∈ (st.linkTo id target between).linksOf x ↔
      y ∈ st.linksOf x ∨
        x = id ∧ (y = target ∨ y ∈ st.linksOf target ∨ y ∈ between ∧ target ∈ st.linksOf y) := by
  have missed := mem_linksOf_foldl_addMissed_iff ne between fresh apart
  simp only [linkTo, mem_linksOf_foldl_addLink_iff, mem_linksOf_addLink_iff, missed, ne,
    false_and, or_false]
  constructor
  · rintro (((mem | ⟨rfl, rest⟩) | ⟨rfl, rfl⟩) | ⟨rfl, mem⟩)
    · exact .inl mem
    · exact .inr ⟨rfl, .inr (.inr rest)⟩
    · exact .inr ⟨rfl, .inl rfl⟩
    · exact .inr ⟨rfl, .inr (.inl mem)⟩
  · rintro (mem | ⟨rfl, rfl | mem | rest⟩)
    · exact .inl (.inl (.inl mem))
    · exact .inl (.inr ⟨rfl, rfl⟩)
    · exact .inr ⟨rfl, mem⟩
    · exact .inl (.inl (.inr ⟨rfl, rest⟩))

end LinkState

end Discourse
