import Discourse.Proofs.Attribution.Readiness
import Discourse.Proofs.Runs
/-!
# The entity mentions at the tokens

Indexing lets every token that an entity mention covers point at the last one that does
(`IsLastCovering`).  It never takes a pointer away, so that a token which no entity mention covers any
more goes on pointing into the list that covered it last (`Remembers`).  One indexing is
`entityAt?_indexEntities`; a history of lists, each indexed in its turn, follows by induction from its
end (`entityAt?_reindexed`).

So the pointers are those of the current list (`IndexMatches`) exactly if it leaves no token uncovered
that pointed anywhere before or was covered by an earlier list.  A pointer that is left over may even
lead beyond the list, and then the pass that follows it stops.
-/

namespace Discourse

/-- The range of an entity mention contains a token. -/
def EntityMention.Covers (e : EntityMention) (token : Nat) : Prop :=
  e.tokenBegin ≤ token ∧ token < e.tokenEnd

instance (e : EntityMention) (token : Nat) : Decidable (e.Covers token) :=
  inferInstanceAs (Decidable (_ ∧ _))

/-- Some entity mention of a list covers a token. -/
def IsCoveredBy (entities : List EntityMention) (token : Nat) : Prop :=
  ∃ e ∈ entities, e.Covers token

instance (entities : List EntityMention) (token : Nat) : Decidable (IsCoveredBy entities token) :=
  inferInstanceAs (Decidable (∃ e ∈ entities, e.Covers token))

/-- The last entity mention of a list that covers a token stands at a place. -/
structure IsLastCovering (entities : List EntityMention) (token place : Nat) : Prop where
  here : ∃ e, entities[place]? = some e ∧ e.Covers token
  last : ∀ (later : Nat) (e : EntityMention), place < later → entities[later]? = some e →
    ¬e.Covers token

section Covering

variable {entities : List EntityMention} {token place : Nat}

theorem IsLastCovering.isCoveredBy (h : IsLastCovering entities token place) :
    IsCoveredBy entities token := by
  obtain ⟨e, here, covers⟩ := h.here
  exact ⟨e, List.mem_of_getElem? here, covers⟩

theorem IsLastCovering.lt_length (h : IsLastCovering entities token place) :
    place < entities.length := by
  obtain ⟨e, here, -⟩ := h.here
  exact (List.getElem?_eq_some_iff.mp here).1

theorem coveringEntity?_eq_some_iff : Document.coveringEntity? entities token = some place ↔
    IsLastCovering entities token place := by
  rw [Document.coveringEntity?, getLast?_places_eq_some_iff
    (p := fun e : EntityMention => decide (e.tokenBegin ≤ token) && decide (token < e.tokenEnd))]
  simp only [← Bool.not_eq_true, Bool.and_eq_true, decide_eq_true_iff]
  exact ⟨fun ⟨here, last⟩ => ⟨here, last⟩, fun ⟨here, last⟩ => ⟨here, last⟩⟩

theorem coveringEntity?_eq_none_iff :
    Document.coveringEntity? entities token = none ↔ ¬IsCoveredBy entities token := by
  rw [Document.coveringEntity?, List.getLast?_eq_none_iff, List.map_eq_nil_iff,
    List.filter_eq_nil_iff]
  simp only [Bool.and_eq_true, decide_eq_true_iff]
  constructor
  · rintro none ⟨e, mem, covers⟩
    obtain ⟨place, here⟩ := List.getElem?_of_mem mem
    exact none (e, place) (List.mem_zipIdx_iff_getElem?.mpr here) covers
  · rintro uncovered ⟨e, place⟩ mem covers
    exact uncovered ⟨e, List.mem_of_getElem? (List.mem_zipIdx_iff_getElem?.mp mem), covers⟩

/-- A token that is covered is covered by a last one. -/
theorem IsCoveredBy.exists_isLastCovering (covered : IsCoveredBy entities token) :
    ∃ place, IsLastCovering entities token place := by
  cases found : Document.coveringEntity? entities token with
  | some place => exact ⟨place, coveringEntity?_eq_some_iff.mp found⟩
  | none => exact absurd covered (coveringEntity?_eq_none_iff.mp found)

end Covering

namespace Document

variable {doc : Document} {lists history : List (List EntityMention)} {last : List EntityMention}
  {token place : Nat}

/-! ## One indexing -/

theorem tokenCount_indexEntities (doc : Document) : doc.indexEntities.tokenCount = doc.tokenCount := by
  rw [← length_tokens, ← length_tokens, tokens_indexEntities, List.length_map, List.length_zipIdx]

/-- A token points at the last entity mention that covers it, or else where it pointed before. -/
theorem entityAt?_indexEntities (inside : token < doc.tokenCount) :
    doc.indexEntities.entityAt? token = some place ↔ IsLastCovering doc.entities token place ∨
      ¬IsCoveredBy doc.entities token ∧ doc.entityAt? token = some place := by
  rw [← length_tokens] at inside
  have token_eq : doc.indexEntities.token? token = some (pointed doc.entities (doc.tokens[token], token)) := by
    rw [token?, tokens_indexEntities, List.getElem?_map, List.getElem?_zipIdx,
      List.getElem?_eq_getElem inside, Option.map_some, Option.map_some, Nat.zero_add]
  rw [entityAt?, entityAt?, token_eq, token?, List.getElem?_eq_getElem inside, Option.bind_some,
    Option.bind_some, pointed]
  cases found : coveringEntity? doc.entities token with
  | some place' =>
    have covering := coveringEntity?_eq_some_iff.mp found
    simp [covering.isCoveredBy, ← coveringEntity?_eq_some_iff, found]
  | none =>
    have uncovered := coveringEntity?_eq_none_iff.mp found
    simp [uncovered, ← coveringEntity?_eq_some_iff, found]

/-! ## A history of lists -/

/-- The document after its entity mentions have been replaced by each list of a row in its turn, and
indexed each time. -/
def reindexed (doc : Document) (lists : List (List EntityMention)) : Document :=
  lists.foldl (fun now entities => { now with entities }.indexEntities) doc

/-- What a token points at after a history of lists: its place in the last list that covers it, or
else what it pointed at in the beginning. -/
inductive Remembers (doc : Document) (lists : List (List EntityMention)) (token place : Nat) : Prop
  | covered {before later : List (List EntityMention)} {entities : List EntityMention} :
      lists = before ++ entities :: later → IsLastCovering entities token place →
      (∀ es ∈ later, ¬IsCoveredBy es token) → Remembers doc lists token place
  | uncovered : (∀ es ∈ lists, ¬IsCoveredBy es token) → doc.entityAt? token = some place →
      Remembers doc lists token place

theorem remembers_nil_iff : doc.Remembers [] token place ↔ doc.entityAt? token = some place := by
  refine ⟨fun remembers => ?_, fun points => .uncovered (List.forall_mem_nil _) points⟩
  cases remembers with
  | covered split => simp at split
  | uncovered _ points => exact points

/-- One more list counts before those that came before it. -/
theorem remembers_append_singleton_iff : doc.Remembers (history ++ [last]) token place ↔
    IsLastCovering last token place ∨ ¬IsCoveredBy last token ∧ doc.Remembers history token place := by
  constructor
  · intro remembers
    cases remembers with
    | @covered before later entities split covering silent =>
      rcases List.eq_nil_or_concat' later with rfl | ⟨later, es, rfl⟩
      · obtain ⟨-, same⟩ := List.append_inj' split rfl
        cases same
        exact .inl covering
      · rw [← List.cons_append, ← List.append_assoc] at split
        obtain ⟨rfl, same⟩ := List.append_inj' split rfl
        cases same
        obtain ⟨silent, uncovered⟩ := List.forall_mem_append.mp silent
        exact .inr ⟨uncovered last List.mem_cons_self, .covered rfl covering silent⟩
    | uncovered silent points =>
      obtain ⟨silent, uncovered⟩ := List.forall_mem_append.mp silent
      exact .inr ⟨uncovered last List.mem_cons_self, .uncovered silent points⟩
  · rintro (covering | ⟨uncovered, remembers⟩)
    · exact .covered rfl covering (List.forall_mem_nil _)
    · have silent {es : List (List EntityMention)} (others : ∀ e ∈ es, ¬IsCoveredBy e token) :
          ∀ e ∈ es ++ [last], ¬IsCoveredBy e token :=
        List.forall_mem_append.mpr ⟨others, List.forall_mem_singleton.mpr uncovered⟩
      cases remembers with
      | @covered before later entities split covering others =>
        have longer : history ++ [last] = before ++ entities :: (later ++ [last]) := by
          rw [split, List.append_assoc, List.cons_append]
        exact .covered longer covering (silent others)
      | uncovered others points => exact .uncovered (silent others) points

theorem tokenCount_reindexed (doc : Document) (lists : List (List EntityMention)) :
    (doc.reindexed lists).tokenCount = doc.tokenCount := by
  induction lists using List.reverseRecOn with
  | nil => rfl
  | append_singleton history last ih =>
    rw [reindexed, List.foldl_append]
    exact (tokenCount_indexEntities _).trans ih

/-- Every token remembers the last list that covered it. -/
theorem entityAt?_reindexed (inside : token < doc.tokenCount) :
    (doc.reindexed lists).entityAt? token = some place ↔ doc.Remembers lists token place := by
  induction lists using List.reverseRecOn with
  | nil => exact remembers_nil_iff.symm
  | append_singleton history last ih =>
    rw [remembers_append_singleton_iff, ← ih, reindexed, List.foldl_append]
    let now : Document := { doc.reindexed history with entities := last }
    have within : token < now.tokenCount := (tokenCount_reindexed doc history).symm ▸ inside
    exact entityAt?_indexEntities within

/-- A token remembers something if it pointed anywhere in the beginning or some list covered it. -/
theorem exists_remembers_iff : (∃ place, doc.Remembers lists token place) ↔
    (doc.entityAt? token).isSome ∨ ∃ es ∈ lists, IsCoveredBy es token := by
  induction lists using List.reverseRecOn with
  | nil => simp [remembers_nil_iff, Option.isSome_iff_exists]
  | append_singleton history last ih =>
    simp only [remembers_append_singleton_iff, exists_or, exists_and_left, ih, List.mem_append,
      List.mem_singleton]
    by_cases covered : IsCoveredBy last token
    · simp [covered, covered.exists_isLastCovering]
    · have uncovered (place : Nat) : ¬IsLastCovering last token place :=
        fun covering => covered covering.isCoveredBy
      simp [covered, uncovered]

/-- The tokens point at the last entity mentions that cover them, and those that none covers point
nowhere. -/
def IndexMatches (doc : Document) : Prop :=
  ∀ token < doc.tokenCount, ∀ place,
    doc.entityAt? token = some place ↔ IsLastCovering doc.entities token place

theorem entitiesInRange_iff : doc.EntitiesInRange ↔ ∀ token < doc.tokenCount, ∀ place,
    doc.entityAt? token = some place → place < doc.entities.length := by
  refine ⟨fun inRange token _ place points => inRange.entityAt? points, ?_⟩
  intro each t mem place points
  obtain ⟨token, here⟩ := List.getElem?_of_mem mem
  have inside := (List.getElem?_eq_some_iff.mp here).1
  rw [length_tokens] at inside
  refine each token inside place ?_
  rw [entityAt?, token?, here, Option.bind_some, points]

theorem IndexMatches.entitiesInRange (matched : doc.IndexMatches) : doc.EntitiesInRange :=
  entitiesInRange_iff.mpr fun token inside place points =>
    ((matched token inside place).mp points).lt_length

/-- After any history of lists, each of which was indexed in its turn, a token points at its place in
the last list that covers it, and if none does where it pointed in the beginning.  These are the
entity mentions of the last list exactly if that leaves no token uncovered which pointed anywhere in the
beginning or was covered before; and they are all in the list exactly if what its uncovered tokens
remember is. -/
theorem reindexed_indexMatches_iff (doc : Document) (history : List (List EntityMention))
    (last : List EntityMention) :
    let now := doc.reindexed (history ++ [last])
    (∀ token < doc.tokenCount, ∀ place,
      now.entityAt? token = some place ↔ doc.Remembers (history ++ [last]) token place) ∧
    (now.IndexMatches ↔ ∀ token < doc.tokenCount,
      ((doc.entityAt? token).isSome ∨ ∃ es ∈ history, IsCoveredBy es token) →
        IsCoveredBy last token) ∧
    (now.EntitiesInRange ↔ ∀ token < doc.tokenCount, ¬IsCoveredBy last token → ∀ place,
      doc.Remembers history token place → place < last.length) := by
  intro now
  have count : now.tokenCount = doc.tokenCount := doc.tokenCount_reindexed _
  have entities : now.entities = last := by
    show (doc.reindexed (history ++ [last])).entities = last
    rw [reindexed, List.foldl_append]
    rfl
  have points {token : Nat} (inside : token < doc.tokenCount) (place : Nat) :
      now.entityAt? token = some place ↔ IsLastCovering last token place ∨
        ¬IsCoveredBy last token ∧ doc.Remembers history token place :=
    (entityAt?_reindexed inside).trans remembers_append_singleton_iff
  refine ⟨fun token inside place => entityAt?_reindexed inside, ?_, ?_⟩
  · rw [IndexMatches, count, entities]
    refine forall_congr' fun token => forall_congr' fun inside => ?_
    rw [← exists_remembers_iff]
    constructor
    · rintro matched ⟨place, remembers⟩
      by_contra uncovered
      have covering := (matched place).mp ((points inside place).mpr (.inr ⟨uncovered, remembers⟩))
      exact uncovered covering.isCoveredBy
    · intro covered place
      rw [points inside place]
      refine ⟨?_, .inl⟩
      rintro (covering | ⟨uncovered, remembers⟩)
      · exact covering
      · exact absurd (covered ⟨place, remembers⟩) uncovered
  · rw [entitiesInRange_iff, count, entities]
    refine forall_congr' fun token => forall_congr' fun inside => ?_
    constructor
    · intro inRange uncovered place remembers
      exact inRange place ((points inside place).mpr (.inr ⟨uncovered, remembers⟩))
    · intro inRange place found
      rcases (points inside place).mp found with covering | ⟨uncovered, remembers⟩
      · exact covering.lt_length
      · exact inRange uncovered place remembers

/-- A name that was covered once goes on pointing at an entity mention when the list is replaced by
that of the tags, which is empty here, and a quotation whose mention it is stops the last pass. -/
theorem reindexed_left_over :
    let joe : EntityMention := ⟨"Joe", 0, 0, 1, "PERSON", none⟩
    let quote : Quotation :=
      { (default : Quotation) with mention? := some ⟨⟨"Joe", 0, 1, .name⟩, "tri"⟩ }
    let doc := { ofSentences "" [{ tokens := [.ofWord "Joe" "NNP", .ofWord "left" "VBD"] }] with
      quotes := [quote] }
    let tagged := (doc.reindexed [[joe]]).entityMentions
    let now := doc.reindexed [[joe], tagged]
    tagged = [] ∧ now.entityAt? 0 = some 0 ∧ ¬now.IndexMatches ∧ ¬now.EntitiesInRange ∧
      now.canonicalize.map Prod.snd = .error .outOfRange := by
  intro joe quote doc tagged now
  have empty : tagged = [] := by decide +kernel
  have points : now.entityAt? 0 = some 0 := by decide +kernel
  have beyond : ¬now.EntitiesInRange := by decide +kernel
  exact ⟨empty, points, fun matched => beyond matched.entitiesInRange, beyond, by decide +kernel⟩

end Document

end Discourse
