import Discourse.Proofs.Mention.Indices
import Discourse.Relation
/-!
# Relations between mentions

Marking relations puts ids into sets that mentions have, one id at a time (`RelationMark`).  What is
put where is settled by the spans of the mentions and the graphs of the sentences alone: elements are
put to their lists first, and whether a list joins two mentions of the sentence is known from then on.
So every sentence is a row of marks, exactly those that hold in it (`Document.exists_marks_sentence`),
and so is the whole document.  The sets end up with what holds and nothing else, and a second time all
marks are there already (`Document.markRelations_related`).
-/

namespace Discourse

/-- The sets of related mentions that a mention has. -/
inductive RelatedSet
  | members
  | lists
  | appositions
  | predicateNominatives
  | relativePronouns
deriving DecidableEq, Repr

namespace Mention

/-- One of the sets of a mention. -/
def related (m : Mention) : RelatedSet → KeySet MentionId
  | .members => m.members
  | .lists => m.lists
  | .appositions => m.appositions
  | .predicateNominatives => m.predicateNominatives
  | .relativePronouns => m.relativePronouns

/-- The mention with one of its sets replaced. -/
def withRelated (m : Mention) (set : RelatedSet) (ids : KeySet MentionId) : Mention :=
  match set with
  | .members => { m with members := ids }
  | .lists => { m with lists := ids }
  | .appositions => { m with appositions := ids }
  | .predicateNominatives => { m with predicateNominatives := ids }
  | .relativePronouns => { m with relativePronouns := ids }

/-- The mention with one more id in one of its sets. -/
def relate (m : Mention) (set : RelatedSet) (id : MentionId) : Mention :=
  m.withRelated set ((m.related set).insert id)

/-- The mention without the ids in its sets. -/
def unrelated (m : Mention) : Mention :=
  { m with
    appositions := {}, predicateNominatives := {}, relativePronouns := {}, members := {}, lists := {} }

theorem withRelated_related (m : Mention) (set : RelatedSet) :
    m.withRelated set (m.related set) = m := by
  cases set <;> rfl

theorem related_withRelated (m : Mention) (set set' : RelatedSet) (ids : KeySet MentionId) :
    (m.withRelated set ids).related set' = if set' = set then ids else m.related set' := by
  cases set <;> cases set' <;> rfl

theorem unrelated_relate (m : Mention) (set : RelatedSet) (id : MentionId) :
    (m.relate set id).unrelated = m.unrelated := by
  cases set <;> rfl

theorem mem_related_relate (m : Mention) (set set' : RelatedSet) (id id' : MentionId) :
    id' ∈ ((m.relate set id).related set').toList ↔
      set' = set ∧ id' = id ∨ id' ∈ (m.related set').toList := by
  rw [relate, related_withRelated]
  split
  next same => simp [same]
  next other => simp [other]

theorem relate_of_mem {m : Mention} {set : RelatedSet} {id : MentionId}
    (mem : id ∈ (m.related set).toList) : m.relate set id = m := by
  rw [relate, KeySet.insert_of_mem mem, withRelated_related]

end Mention

/-- An id to be put into one of the sets of a mention. -/
structure RelationMark where
  target : MentionId
  set : RelatedSet
  id : MentionId
deriving DecidableEq, Repr

namespace Document

variable {doc d : Document}

/-! ## Marks -/

/-- The document with one mark set. -/
def mark (d : Document) (k : RelationMark) : Document :=
  d.modifyMention k.target fun m => m.relate k.set k.id

/-- The mark is set where its mention exists. -/
def HasMark (d : Document) (k : RelationMark) : Prop :=
  ∀ m, d.mention? k.target = some m → k.id ∈ (m.related k.set).toList

theorem mention?_mark (d : Document) (k : RelationMark) (id : MentionId) :
    (d.mark k).mention? id =
      if id = k.target then (d.mention? id).map fun m => m.relate k.set k.id else d.mention? id :=
  Table.find?_modify ..

theorem mark_of_hasMark {k : RelationMark} (marked : d.HasMark k) : d.mark k = d := by
  have same : d.mentions.modify k.target (fun m => m.relate k.set k.id) = d.mentions := by
    refine Table.ext_find? fun id => ?_
    rw [Table.find?_modify]
    split
    next here =>
      cases found : d.mentions.find? id with
      | none => rfl
      | some m =>
        have mem := marked m (here ▸ found)
        rw [Option.map_some, Mention.relate_of_mem mem]
    next => rfl
  rw [mark, modifyMention, same]

theorem HasMark.mark {k : RelationMark} (marked : d.HasMark k) (k' : RelationMark) :
    (d.mark k').HasMark k := by
  intro m found
  rw [mention?_mark] at found
  split at found
  next =>
    obtain ⟨m', before, rfl⟩ := Option.map_eq_some_iff.mp found
    exact (m'.mem_related_relate ..).mpr (.inr (marked m' before))
  next => exact marked m found

theorem hasMark_mark (d : Document) (k : RelationMark) : (d.mark k).HasMark k := by
  intro m found
  rw [mention?_mark, if_pos rfl] at found
  obtain ⟨m', -, rfl⟩ := Option.map_eq_some_iff.mp found
  exact (m'.mem_related_relate ..).mpr (.inl ⟨rfl, rfl⟩)

theorem HasMark.foldl_mark {k : RelationMark} (marked : d.HasMark k) (ks : List RelationMark) :
    (ks.foldl Document.mark d).HasMark k :=
  List.foldlRecOn (motive := fun d => HasMark d k) ks Document.mark marked
    fun _ marked k' _ => marked.mark k'

theorem hasMark_foldl_mark {k : RelationMark} {ks : List RelationMark} (mem : k ∈ ks)
    (d : Document) : (ks.foldl Document.mark d).HasMark k := by
  induction ks generalizing d with
  | nil => cases mem
  | cons k' rest ih =>
    rcases List.mem_cons.mp mem with rfl | mem
    · exact (d.hasMark_mark k).foldl_mark rest
    · exact ih mem _

theorem foldl_mark_of_hasMark {ks : List RelationMark} (marked : ∀ k ∈ ks, d.HasMark k) :
    ks.foldl Document.mark d = d := by
  induction ks with
  | nil => rfl
  | cons k rest ih =>
    obtain ⟨first, marked⟩ := List.forall_mem_cons.mp marked
    rw [List.foldl_cons, mark_of_hasMark first, ih marked]

theorem mem_pairsWhere_iff {ids : List MentionId} {test : Mention → Mention → Bool}
    {a b : MentionId} : (a, b) ∈ d.pairsWhere ids test ↔ a ∈ ids ∧ b ∈ ids ∧ a ≠ b ∧
      ∃ m m', d.mention? a = some m ∧ d.mention? b = some m' ∧ test m m' = true := by
  simp only [pairsWhere, List.mem_flatMap, List.mem_filterMap]
  constructor
  · rintro ⟨a', memA, b', memB, found⟩
    split at found
    next m m' foundA foundB =>
      split at found
      next kept =>
        cases found
        simp only [Bool.and_eq_true, bne_iff_ne] at kept
        exact ⟨memA, memB, kept.1, m, m', foundA, foundB, kept.2⟩
      next => cases found
    next => cases found
  · rintro ⟨memA, memB, ne, m, m', foundA, foundB, kept⟩
    refine ⟨a, memA, b, memB, ?_⟩
    simp only [foundA, foundB]
    rw [if_pos (by simp [ne, kept])]

theorem markLists_eq (d : Document) (ids : List MentionId) :
    d.markLists ids = ((d.pairsWhere ids Mention.isMemberOf).flatMap fun pair =>
      [⟨pair.2, .members, pair.1⟩, ⟨pair.1, .lists, pair.2⟩]).foldl mark d := by
  rw [List.foldl_flatMap]
  rfl

theorem markAppositions_eq (d : Document) (ids : List MentionId) (pairs : List (Nat × Nat)) :
    d.markAppositions ids pairs = ((d.pairsWhere ids (Mention.isApposition pairs)).map fun pair =>
      ⟨pair.2, .appositions, pair.1⟩).foldl mark d := by
  rw [List.foldl_map]
  rfl

theorem markPredicates_eq (d : Document) (ids : List MentionId) (pairs : List (Nat × Nat)) :
    d.markPredicates ids pairs = ((d.pairsWhere ids (Mention.isPredicate pairs)).map fun pair =>
      ⟨pair.2, .predicateNominatives, pair.1⟩).foldl mark d := by
  rw [List.foldl_map]
  rfl

/-- The heads of the appositions of a sentence; none without a graph. -/
def appositionsAt (d : Document) (i : Nat) : List (Nat × Nat) :=
  ((d.sentences[i]?.bind Sentence.dependencies?).map DependencyGraph.appositionPairs).getD []

/-- The heads that a copula joins in a sentence; none without a graph. -/
def copulasAt (d : Document) (i : Nat) : List (Nat × Nat) :=
  (d.sentences[i]?.bind fun s => s.dependencies?.map fun g => g.copulaPairs s.tokens).getD []

theorem pairsWhere_eq_nil {ids : List MentionId} {test : Mention → Mention → Bool}
    (never : ∀ m m', test m m' = false) : d.pairsWhere ids test = [] := by
  refine List.eq_nil_iff_forall_not_mem.mpr fun pair mem => ?_
  obtain ⟨-, -, -, m, m', -, -, kept⟩ := mem_pairsWhere_iff.mp mem
  rw [never] at kept
  cases kept

theorem markAppositions_nil (d : Document) (ids : List MentionId) :
    d.markAppositions ids [] = d := by
  rw [markAppositions_eq, pairsWhere_eq_nil fun m m' => by simp [Mention.isApposition]]
  rfl

theorem markPredicates_nil (d : Document) (ids : List MentionId) :
    d.markPredicates ids [] = d := by
  rw [markPredicates_eq, pairsWhere_eq_nil fun m m' => by simp [Mention.isPredicate]]
  rfl

theorem sentences_foldl_mark (d : Document) (ks : List RelationMark) :
    (ks.foldl mark d).sentences = d.sentences := by
  induction ks generalizing d with
  | nil => rfl
  | cons k rest ih =>
    rw [List.foldl_cons, ih]
    rfl

/-- A sentence is marked in three stages, the last two of which its graph directs. -/
theorem markSentence_stages (d : Document) (ids : List MentionId) (i : Nat) :
    d.markSentence ids i =
      ((d.markLists ids).markAppositions ids (d.appositionsAt i)).markPredicates ids
        (d.copulasAt i) := by
  have text : (d.markLists ids).sentences = d.sentences := by
    rw [markLists_eq, sentences_foldl_mark]
  rw [markSentence, appositionsAt, copulasAt, text]
  cases d.sentences[i]? with
  | none =>
    dsimp only [Option.bind_none, Option.map_none, Option.getD_none]
    rw [markAppositions_nil, markPredicates_nil]
  | some s =>
    dsimp only [Option.bind_some]
    cases s.dependencies? with
    | none =>
      dsimp only [Option.map_none, Option.getD_none]
      rw [markAppositions_nil, markPredicates_nil]
    | some g => rfl

/-! ## What holds -/

/-- The mention `m` has the id `id`, which is listed for sentence `i`. -/
def IsListed (doc : Document) (i : Nat) (id : MentionId) (m : Mention) : Prop :=
  id ∈ doc.listOf i ∧ doc.mention? id = some m

/-- In sentence `i` the list `list` has `x` inside, which is no list. -/
def IsElementAt (doc : Document) (i : Nat) (x list : MentionId) : Prop :=
  ∃ m m', doc.IsListed i x m ∧ doc.IsListed i list m' ∧ m'.type = .list ∧ m.type ≠ .list ∧
    m.insideIn m' = true

/-- Both are listed in one sentence, `list` is a list, and `x` is none and lies inside it. -/
def IsElement (doc : Document) (x list : MentionId) : Prop := ∃ i, doc.IsElementAt i x list

/-- Neither is an element of the other, and no list has both. -/
def ListApart (doc : Document) (x y : MentionId) : Prop :=
  ¬ doc.IsElement x y ∧ ¬ doc.IsElement y x ∧
    ∀ list, ¬ (doc.IsElement x list ∧ doc.IsElement y list)

/-- Different mentions `m` and `m'` of sentence `i` that no list joins have a pair of heads, the one
of `m'` first. -/
def HeadsPaired (doc : Document) (i : Nat) (pairs : List (Nat × Nat)) (x y : MentionId)
    (m m' : Mention) : Prop :=
  doc.IsListed i x m ∧ doc.IsListed i y m' ∧ x ≠ y ∧ (m'.head, m.head) ∈ pairs ∧ doc.ListApart x y

/-- In sentence `i` the mention `x` is an apposition to `y`; with the head of `y` only inside it. -/
def AppositionAt (doc : Document) (i : Nat) (x y : MentionId) : Prop :=
  ∃ m m', doc.HeadsPaired i (doc.appositionsAt i) x y m m' ∧
    (m'.head ≠ m.head ∨ m.insideIn m' = true)

/-- In sentence `i` a copula says of `y` that it is `x`. -/
def PredicateAt (doc : Document) (i : Nat) (x y : MentionId) : Prop :=
  ∃ m m', doc.HeadsPaired i (doc.copulasAt i) x y m m'

/-- The id of a mark belongs into the set of its mention, as far as sentence `i` goes. -/
def HoldsAt (doc : Document) (i : Nat) (k : RelationMark) : Prop :=
  match k.set with
  | .members => doc.IsElementAt i k.id k.target
  | .lists => doc.IsElementAt i k.target k.id
  | .appositions => doc.AppositionAt i k.target k.id
  | .predicateNominatives => doc.PredicateAt i k.target k.id
  | .relativePronouns => False

/-- Mentions are found by their ids, are listed for their own sentences only, and are related to
nothing. -/
structure Unrelated (doc : Document) : Prop where
  byId : doc.MentionsById
  home : ∀ i id m, doc.IsListed i id m → m.sentence = i
  empty : ∀ id m, doc.mention? id = some m → ∀ set, m.related set = {}

/-- A document `d` on the way from `doc`: nothing but sets has been written, and only what holds. -/
structure Marked (doc d : Document) : Prop where
  kept : KeepsMentions Mention.unrelated doc d
  sentences : d.sentences = doc.sentences
  predicted : d.predicted = doc.predicted
  sound : ∀ id m, d.mention? id = some m → ∀ set other, other ∈ (m.related set).toList →
    ∃ i, doc.HoldsAt i ⟨id, set, other⟩

namespace Marked

theorem refl (h : doc.Unrelated) : Marked doc doc where
  kept := .of_eq rfl
  sentences := rfl
  predicted := rfl
  sound := by
    intro id m found set other mem
    rw [h.empty id m found] at mem
    cases mem

theorem mark (reached : Marked doc d) {k : RelationMark} {i : Nat} (holds : doc.HoldsAt i k) :
    Marked doc (d.mark k) where
  kept := reached.kept.trans (.modifyMention d k.target _ fun m => m.unrelated_relate k.set k.id)
  sentences := reached.sentences
  predicted := reached.predicted
  sound := by
    intro id m found set other mem
    rw [mention?_mark] at found
    split at found
    next here =>
      obtain ⟨m', before, rfl⟩ := Option.map_eq_some_iff.mp found
      rcases (m'.mem_related_relate ..).mp mem with ⟨rfl, rfl⟩ | mem
      · exact ⟨i, here ▸ holds⟩
      · exact reached.sound id m' before set other mem
    next => exact reached.sound id m found set other mem

theorem foldl_mark (reached : Marked doc d) {ks : List RelationMark}
    (hold : ∀ k ∈ ks, ∃ i, doc.HoldsAt i k) : Marked doc (ks.foldl Document.mark d) := by
  induction ks generalizing d with
  | nil => exact reached
  | cons k rest ih =>
    obtain ⟨⟨i, holds⟩, hold⟩ := List.forall_mem_cons.mp hold
    exact ih (reached.mark holds) hold

/-- A mention listed in `doc` is still there, but for its sets. -/
theorem exists_listed (reached : Marked doc d) {i : Nat} {id : MentionId} {m : Mention}
    (mem : id ∈ doc.listOf i) (found : d.mention? id = some m) :
    ∃ m', doc.IsListed i id m' ∧ m'.unrelated = m.unrelated := by
  obtain ⟨m', found', same⟩ := reached.kept.exists_mention? found
  exact ⟨m', ⟨mem, found'⟩, same⟩

theorem exists_found (reached : Marked doc d) {i : Nat} {id : MentionId} {m : Mention}
    (listed : doc.IsListed i id m) :
    ∃ m', d.mention? id = some m' ∧ m'.unrelated = m.unrelated :=
  reached.kept.symm.exists_mention? listed.2

end Marked

theorem isMemberOf_congr {a b a' b' : Mention} (same : a.unrelated = a'.unrelated)
    (same' : b.unrelated = b'.unrelated) : a.isMemberOf b = a'.isMemberOf b' := by
  have member : a.unrelated.isMemberOf b.unrelated = a'.unrelated.isMemberOf b'.unrelated := by
    rw [same, same']
  exact member

namespace Unrelated

/-- What is inside a list of one sentence is listed there, too. -/
theorem isElementAt_of_isElement (h : doc.Unrelated) {i : Nat} {x list : MentionId} {m : Mention}
    (listed : doc.IsListed i x m) (element : doc.IsElement x list) : doc.IsElementAt i x list := by
  obtain ⟨j, m', m'', listed', rest⟩ := element
  cases listed.2.symm.trans listed'.2
  have same := (h.home i x m listed).symm.trans (h.home j x m listed')
  subst same
  exact ⟨m, m'', listed', rest⟩

theorem isMemberOf_iff (h : doc.Unrelated) {i : Nat} {x list : MentionId} {m m' : Mention}
    (listed : doc.IsListed i x m) (listed' : doc.IsListed i list m') :
    m.isMemberOf m' = true ↔ doc.IsElementAt i x list := by
  have ids : m.id = x ∧ m'.id = list := ⟨h.byId x m listed.2, h.byId list m' listed'.2⟩
  simp only [Mention.isMemberOf, Bool.and_eq_true, bne_iff_ne, beq_iff_eq, ids.1, ids.2]
  constructor
  · rintro ⟨⟨⟨-, other⟩, isList⟩, inside⟩
    exact ⟨m, m', listed, listed', isList, other, inside⟩
  · rintro ⟨m₀, m₀', ⟨-, found⟩, ⟨-, found'⟩, isList, other, inside⟩
    cases listed.2.symm.trans found
    cases listed'.2.symm.trans found'
    refine ⟨⟨⟨?_, other⟩, isList⟩, inside⟩
    rintro rfl
    cases found.symm.trans found'
    exact other isList

end Unrelated

theorem ListApart.symm {x y : MentionId} (apart : doc.ListApart x y) : doc.ListApart y x :=
  ⟨apart.2.1, apart.1, fun list both => apart.2.2 list both.symm⟩

/-! ## The stages of a sentence -/

section Stages

variable {i : Nat} {x y list : MentionId} {m m' : Mention}

theorem mem_elements_iff (h : doc.Unrelated) (reached : Marked doc d) :
    (x, list) ∈ d.pairsWhere (doc.listOf i) Mention.isMemberOf ↔ doc.IsElementAt i x list := by
  rw [mem_pairsWhere_iff]
  constructor
  · rintro ⟨memX, memList, -, m, m', found, found', member⟩
    obtain ⟨m₀, listed, same⟩ := reached.exists_listed memX found
    obtain ⟨m₀', listed', same'⟩ := reached.exists_listed memList found'
    rw [← isMemberOf_congr same same'] at member
    exact (h.isMemberOf_iff listed listed').mp member
  · intro element
    have ⟨m₀, m₀', listed, listed', isList, other, _⟩ := element
    obtain ⟨m, found, same⟩ := reached.exists_found listed
    obtain ⟨m', found', same'⟩ := reached.exists_found listed'
    refine ⟨listed.1, listed'.1, ?_, m, m', found, found', ?_⟩
    · rintro rfl
      cases listed.2.symm.trans listed'.2
      exact other isList
    · rw [isMemberOf_congr same same']
      exact (h.isMemberOf_iff listed listed').mpr element

/-- Once the lists of sentence `i` have been marked, its mentions know the lists they are in. -/
theorem mem_lists_iff (h : doc.Unrelated) (reached : Marked doc d)
    (listsMarked : ∀ k, doc.HoldsAt i k → k.set = .lists → d.HasMark k)
    (mem : x ∈ doc.listOf i) (found : d.mention? x = some m) :
    list ∈ m.lists.toList ↔ doc.IsElement x list := by
  constructor
  · exact reached.sound x m found .lists list
  · intro element
    obtain ⟨m', listed, -⟩ := reached.exists_listed mem found
    have element := h.isElementAt_of_isElement listed element
    exact listsMarked ⟨x, .lists, list⟩ element rfl m found

theorem inListRelation_eq_false_iff (h : doc.Unrelated) (reached : Marked doc d)
    (listsMarked : ∀ k, doc.HoldsAt i k → k.set = .lists → d.HasMark k)
    (memX : x ∈ doc.listOf i) (memY : y ∈ doc.listOf i) (found : d.mention? x = some m)
    (found' : d.mention? y = some m') :
    m.inListRelation m' = false ↔ doc.ListApart x y := by
  obtain ⟨m₀, listed, same⟩ := reached.exists_listed memX found
  obtain ⟨m₀', listed', same'⟩ := reached.exists_listed memY found'
  have element : m.isMemberOf m' = true ↔ doc.IsElement x y := by
    rw [← isMemberOf_congr same same', h.isMemberOf_iff listed listed']
    exact ⟨fun element => ⟨i, element⟩, h.isElementAt_of_isElement listed⟩
  have element' : m'.isMemberOf m = true ↔ doc.IsElement y x := by
    rw [← isMemberOf_congr same' same, h.isMemberOf_iff listed' listed]
    exact ⟨fun element => ⟨i, element⟩, h.isElementAt_of_isElement listed'⟩
  have shared : m.sharesListWith m' = true ↔ ∃ list, doc.IsElement x list ∧ doc.IsElement y list := by
    simp only [Mention.sharesListWith, List.any_eq_true, KeySet.contains_iff,
      mem_lists_iff h reached listsMarked memX found, mem_lists_iff h reached listsMarked memY found']
  rw [Mention.inListRelation, Bool.eq_false_iff, Ne, Bool.or_eq_true, Bool.or_eq_true, element,
    element', shared, ListApart]
  simp only [not_or, not_exists, and_assoc]

/-- The pairs with which appositions and predicates are marked, after the lists. -/
theorem mem_headPairs_iff (h : doc.Unrelated) (reached : Marked doc d)
    (listsMarked : ∀ k, doc.HoldsAt i k → k.set = .lists → d.HasMark k)
    (pairs : List (Nat × Nat)) (further : Mention → Mention → Bool)
    (own : ∀ m m', further m m' = further m.unrelated m'.unrelated) :
    (y, x) ∈ d.pairsWhere (doc.listOf i) (fun m' m => m'.isPredicate pairs m && further m' m) ↔
      ∃ m m', doc.HeadsPaired i pairs x y m m' ∧ further m' m = true := by
  rw [mem_pairsWhere_iff]
  simp only [Mention.isPredicate, Bool.and_eq_true, Bool.not_eq_true', List.contains_iff_mem]
  constructor
  · rintro ⟨memY, memX, ne, m', m, found', found, ⟨single, heads⟩, more⟩
    obtain ⟨m₀, listed, same⟩ := reached.exists_listed memX found
    obtain ⟨m₀', listed', same'⟩ := reached.exists_listed memY found'
    have single :=
      (inListRelation_eq_false_iff h reached listsMarked memY memX found' found).mp single
    rw [own, ← same, ← same', ← own] at more
    rw [show m'.head = m₀'.head from (congrArg Mention.head same'.symm :),
      show m.head = m₀.head from (congrArg Mention.head same.symm :)] at heads
    exact ⟨m₀, m₀', ⟨listed, listed', ne.symm, heads, single.symm⟩, more⟩
  · rintro ⟨m₀, m₀', ⟨listed, listed', ne, heads, single⟩, more⟩
    obtain ⟨m, found, same⟩ := reached.exists_found listed
    obtain ⟨m', found', same'⟩ := reached.exists_found listed'
    refine ⟨listed'.1, listed.1, ne.symm, m', m, found', found, ⟨?_, ?_⟩, ?_⟩
    · exact (inListRelation_eq_false_iff h reached listsMarked listed'.1 listed.1 found'
        found).mpr single.symm
    · rw [show m'.head = m₀'.head from (congrArg Mention.head same' :),
        show m.head = m₀.head from (congrArg Mention.head same :)]
      exact heads
    · rw [own, same, same', ← own]
      exact more

theorem exists_listMarks (h : doc.Unrelated) (reached : Marked doc d) (i : Nat) :
    ∃ ks : List RelationMark, d.markLists (doc.listOf i) = ks.foldl mark d ∧
      ∀ k, k ∈ ks ↔ doc.HoldsAt i k ∧ (k.set = .members ∨ k.set = .lists) := by
  refine ⟨_, markLists_eq d (doc.listOf i), fun k => ?_⟩
  obtain ⟨target, set, id⟩ := k
  rw [List.mem_flatMap]
  simp only [Prod.exists, mem_elements_iff h reached, List.mem_cons, List.not_mem_nil, or_false,
    RelationMark.mk.injEq]
  cases set <;> simp [HoldsAt]

theorem exists_appositionMarks (h : doc.Unrelated) (reached : Marked doc d)
    (listsMarked : ∀ k, doc.HoldsAt i k → k.set = .lists → d.HasMark k) :
    ∃ ks : List RelationMark,
      d.markAppositions (doc.listOf i) (doc.appositionsAt i) = ks.foldl mark d ∧
      ∀ k, k ∈ ks ↔ doc.HoldsAt i k ∧ k.set = .appositions := by
  have pairs (x y : MentionId) :=
    mem_headPairs_iff (x := x) (y := y) h reached listsMarked (doc.appositionsAt i)
      (fun m' m => m'.head != m.head || m.insideIn m') fun _ _ => rfl
  refine ⟨_, markAppositions_eq d (doc.listOf i) (doc.appositionsAt i), fun k => ?_⟩
  obtain ⟨target, set, id⟩ := k
  rw [List.mem_map, Prod.exists]
  constructor
  · rintro ⟨y, x, mem, eq⟩
    cases eq
    obtain ⟨m, m', paired, nested⟩ := (pairs x y).mp mem
    exact ⟨⟨m, m', paired, by simpa using nested⟩, rfl⟩
  · rintro ⟨holds, rfl⟩
    obtain ⟨m, m', paired, nested⟩ := holds
    exact ⟨id, target, (pairs target id).mpr ⟨m, m', paired, by simpa using nested⟩, rfl⟩

theorem exists_predicateMarks (h : doc.Unrelated) (reached : Marked doc d)
    (listsMarked : ∀ k, doc.HoldsAt i k → k.set = .lists → d.HasMark k) :
    ∃ ks : List RelationMark,
      d.markPredicates (doc.listOf i) (doc.copulasAt i) = ks.foldl mark d ∧
      ∀ k, k ∈ ks ↔ doc.HoldsAt i k ∧ k.set = .predicateNominatives := by
  have pairs (x y : MentionId) :=
    mem_headPairs_iff (x := x) (y := y) h reached listsMarked (doc.copulasAt i)
      (fun _ _ => true) fun _ _ => rfl
  simp only [Bool.and_true, and_true] at pairs
  refine ⟨_, markPredicates_eq d (doc.listOf i) (doc.copulasAt i), fun k => ?_⟩
  obtain ⟨target, set, id⟩ := k
  rw [List.mem_map, Prod.exists]
  constructor
  · rintro ⟨y, x, mem, eq⟩
    cases eq
    exact ⟨(pairs x y).mp mem, rfl⟩
  · rintro ⟨holds, rfl⟩
    exact ⟨id, target, (pairs target id).mpr holds, rfl⟩

end Stages

/-- Marking a sentence is a row of marks, exactly those that hold in it. -/
theorem exists_marks_sentence (h : doc.Unrelated) (reached : Marked doc d) (i : Nat) :
    ∃ ks : List RelationMark, d.markSentence (doc.listOf i) i = ks.foldl mark d ∧
      ∀ k, k ∈ ks ↔ doc.HoldsAt i k := by
  obtain ⟨listMarks, lists, memLists⟩ := exists_listMarks h reached i
  have listed := reached.foldl_mark fun k mem => ⟨i, ((memLists k).mp mem).1⟩
  have listsMarked : ∀ k, doc.HoldsAt i k → k.set = .lists →
      (listMarks.foldl mark d).HasMark k :=
    fun k holds set => hasMark_foldl_mark ((memLists k).mpr ⟨holds, .inr set⟩) d
  obtain ⟨appositionMarks, appositions, memAppositions⟩ :=
    exists_appositionMarks h listed listsMarked
  have apposed := listed.foldl_mark fun k mem => ⟨i, ((memAppositions k).mp mem).1⟩
  obtain ⟨predicateMarks, predicates, memPredicates⟩ := exists_predicateMarks h apposed
    fun k holds set => (listsMarked k holds set).foldl_mark appositionMarks
  have same : d.appositionsAt i = doc.appositionsAt i ∧ d.copulasAt i = doc.copulasAt i := by
    rw [appositionsAt, copulasAt, reached.sentences]
    exact ⟨rfl, rfl⟩
  refine ⟨listMarks ++ appositionMarks ++ predicateMarks, ?_, fun k => ?_⟩
  · rw [markSentence_stages, same.1, same.2, lists, appositions, predicates, List.foldl_append,
      List.foldl_append]
  · rw [List.mem_append, List.mem_append, memLists, memAppositions, memPredicates]
    obtain ⟨target, set, id⟩ := k
    cases set <;> simp [HoldsAt]

/-! ## The whole document -/

theorem exists_marks_entries (h : doc.Unrelated) (reached : Marked doc d)
    {entries : List (List MentionId × Nat)}
    (own : ∀ entry ∈ entries, entry.1 = doc.listOf entry.2) :
    ∃ ks : List RelationMark,
      entries.foldl (fun d entry => d.markSentence entry.1 entry.2) d = ks.foldl mark d ∧
      ∀ k, k ∈ ks ↔ ∃ entry ∈ entries, doc.HoldsAt entry.2 k := by
  induction entries generalizing d with
  | nil => exact ⟨[], rfl, by simp⟩
  | cons entry rest ih =>
    obtain ⟨first, own⟩ := List.forall_mem_cons.mp own
    obtain ⟨ks, marked, mem⟩ := exists_marks_sentence h reached entry.2
    have next := reached.foldl_mark fun k inRow => ⟨entry.2, (mem k).mp inRow⟩
    obtain ⟨ks', marked', mem'⟩ := ih next own
    refine ⟨ks ++ ks', ?_, fun k => ?_⟩
    · rw [List.foldl_cons, first, marked, marked', List.foldl_append]
    · simp only [List.mem_append, mem, mem', List.mem_cons, or_and_right, exists_or, exists_eq_left]

/-- What holds in a sentence is between mentions listed for it. -/
theorem listed_of_holdsAt {i : Nat} {k : RelationMark} (holds : doc.HoldsAt i k) :
    ∃ id, id ∈ doc.listOf i := by
  obtain ⟨target, set, id⟩ := k
  cases set with
  | members =>
    obtain ⟨m, m', listed, -⟩ := holds
    exact ⟨_, listed.1⟩
  | lists =>
    obtain ⟨m, m', listed, -⟩ := holds
    exact ⟨_, listed.1⟩
  | appositions =>
    obtain ⟨m, m', paired, -⟩ := holds
    exact ⟨_, paired.1.1⟩
  | predicateNominatives =>
    obtain ⟨m, m', paired⟩ := holds
    exact ⟨_, paired.1.1⟩
  | relativePronouns => exact holds.elim

/-- Marking all relations is a row of marks, exactly those that hold. -/
theorem exists_marks (h : doc.Unrelated) (reached : Marked doc d) :
    ∃ ks : List RelationMark, d.markRelations = ks.foldl mark d ∧
      ∀ k, k ∈ ks ↔ ∃ i, doc.HoldsAt i k := by
  have own : ∀ entry ∈ doc.predicted.zipIdx, entry.1 = doc.listOf entry.2 := by
    rintro ⟨row, i⟩ mem
    rw [listOf, List.mem_zipIdx_iff_getElem?.mp mem]
    rfl
  obtain ⟨ks, marked, mem⟩ := exists_marks_entries h reached own
  refine ⟨ks, ?_, fun k => ?_⟩
  · rw [← marked, ← reached.predicted]
    rfl
  · rw [mem]
    constructor
    · rintro ⟨entry, -, holds⟩
      exact ⟨entry.2, holds⟩
    · rintro ⟨i, holds⟩
      obtain ⟨id, listed⟩ := listed_of_holdsAt holds
      obtain ⟨row, row_i, -⟩ := mem_listOf_iff.mp listed
      exact ⟨(row, i), List.mem_zipIdx_iff_getElem?.mpr row_i, holds⟩

/-- What marking makes of a document `doc`: only sets are written, and they are exact. -/
structure Related (doc d : Document) : Prop where
  kept : ∃ mentions, d = { doc with mentions }
  mentions : KeepsMentions Mention.unrelated doc d
  members : ∀ list m, d.mention? list = some m → ∀ x,
    x ∈ m.members.toList ↔ doc.IsElement x list
  lists : ∀ x m, d.mention? x = some m → ∀ list,
    list ∈ m.lists.toList ↔ doc.IsElement x list
  appositions : ∀ x m, d.mention? x = some m → ∀ y,
    y ∈ m.appositions.toList ↔ ∃ i, doc.AppositionAt i x y
  predicateNominatives : ∀ x m, d.mention? x = some m → ∀ y,
    y ∈ m.predicateNominatives.toList ↔ ∃ i, doc.PredicateAt i x y
  relativePronouns : ∀ x m, d.mention? x = some m → m.relativePronouns = {}
  /-- Marking a second time changes nothing. -/
  settled : d.markRelations = d

theorem markRelations_related (h : doc.Unrelated) : Related doc doc.markRelations := by
  obtain ⟨ks, marked, mem⟩ := exists_marks h (.refl h)
  have reached : Marked doc doc.markRelations := by
    rw [marked]
    exact (Marked.refl h).foldl_mark fun k inRow => (mem k).mp inRow
  have complete : ∀ k, (∃ i, doc.HoldsAt i k) → doc.markRelations.HasMark k := by
    intro k holds
    rw [marked]
    exact hasMark_foldl_mark ((mem k).mpr holds) doc
  have exact (set : RelatedSet) (id : MentionId) (m : Mention)
      (found : doc.markRelations.mention? id = some m) (other : MentionId) :
      other ∈ (m.related set).toList ↔ ∃ i, doc.HoldsAt i ⟨id, set, other⟩ :=
    ⟨reached.sound id m found set other, fun holds => complete ⟨id, set, other⟩ holds m found⟩
  refine ⟨doc.markRelations_eq, reached.kept, exact .members, exact .lists, exact .appositions,
    exact .predicateNominatives, fun x m found => ?_, ?_⟩
  · have none := List.eq_nil_iff_forall_not_mem.mpr fun other mem => by
      obtain ⟨i, never⟩ := (exact .relativePronouns x m found other).mp mem
      exact never
    cases sets : m.relativePronouns with
    | mk ids once =>
      have none : m.relativePronouns.toList = [] := none
      rw [sets] at none
      cases none
      rfl
  · obtain ⟨ks', marked', mem'⟩ := exists_marks h reached
    rw [marked']
    exact foldl_mark_of_hasMark fun k inRow => complete k ((mem' k).mp inRow)

theorem unrelated_of_entries
    (own : ∀ entry ∈ doc.mentions.entries,
      entry.2.id = entry.1 ∧ entry.2.unrelated = entry.2 ∧
        ∀ row ∈ doc.predicted.zipIdx, entry.1 ∈ row.1 → entry.2.sentence = row.2) :
    doc.Unrelated := by
  have known (id : MentionId) (m : Mention) (found : doc.mention? id = some m) :=
    own (id, m) ((Table.mem_entries_iff _ _ _).mpr found)
  refine ⟨fun id m found => (known id m found).1, fun i id m listed => ?_, fun id m found set => ?_⟩
  · obtain ⟨row, row_i, mem⟩ := mem_listOf_iff.mp listed.1
    exact (known id m listed.2).2.2 (row, i) (List.mem_zipIdx_iff_getElem?.mpr row_i) mem
  · have bare : m.unrelated = m := (known id m found).2.1
    rw [← bare]
    cases set <;> rfl

/-- Two names in a list, the graph of which joins them all the same, and a name with an apposition. -/
theorem markRelations_related_baker :
    let words := [Token.ofWord "Joe" "NNP", .ofWord "and" "CC", .ofWord "Ann" "NNP",
      .ofWord "met" "VBD", .ofWord "Tim" "NNP", .ofWord "the" "DT", .ofWord "baker" "NN"]
    let graph : DependencyGraph :=
      { edges := [⟨some 0, 2, "appos"⟩, ⟨some 4, 6, "appos"⟩] }
    let both : Mention := { id := 0, sentence := 0, start := 0, stop := 3, head := 0, type := .list }
    let joe : Mention := { id := 1, sentence := 0, start := 0, stop := 1, head := 0 }
    let ann : Mention := { id := 2, sentence := 0, start := 2, stop := 3, head := 2 }
    let tim : Mention := { id := 3, sentence := 0, start := 4, stop := 5, head := 4 }
    let baker : Mention := { id := 4, sentence := 0, start := 5, stop := 7, head := 6 }
    let doc := [both, joe, ann, tim, baker].foldl addMention
      (ofSentences "d" [{ tokens := words, basic? := some graph }])
    doc.Unrelated ∧ Related doc doc.markRelations ∧
      (doc.markRelations.mention? 2).map (fun m => (m.lists.toList, m.appositions.toList)) =
        some ([0], []) ∧
      (doc.markRelations.mention? 4).map (fun m => (m.lists.toList, m.appositions.toList)) =
        some ([], [3]) := by
  intro words graph both joe ann tim baker doc
  have unrelated : doc.Unrelated := unrelated_of_entries (by decide +kernel)
  refine ⟨unrelated, markRelations_related unrelated, ?_, ?_⟩
  · decide +kernel
  · decide +kernel

end Document

end Discourse
