import Discourse.Proofs.Cluster.FirstMention
import Discourse.Proofs.Preparation.Pairs
/-!
# The indices of mentions

A mention is found by its id, in the list of its sentence, by its position there and by its head.
The four indices are filled one mention at a time, and they agree from the first mention on
(`Document.Registered`), also where a fault ends the registration.  All it takes is that no id comes
twice, and twins see to that.

Sorting then moves ids within the lists and writes the positions again.  A list is sorted by what the
ids stand for, so that the lists one after the other are in the order of the document, and the places
given out at the end are the places in that row (`Document.reorderMentions_sorted`).
-/

namespace Discourse

namespace Document

variable {doc d : Document}

/-! ## Registering -/

/-- The ids listed for a sentence; none where there is no such list. -/
def listOf (d : Document) (sentence : Nat) : List MentionId := d.predicted[sentence]?.getD []

theorem getD_pushAt {α : Type} (rows : List (List α)) (i j : Nat) (a : α) :
    (pushAt rows i a)[j]?.getD [] =
      if i = j then rows[j]?.getD [] ++ [a] else rows[j]?.getD [] := by
  have padded : ∀ k, (rows ++ List.replicate k [])[j]?.getD [] = rows[j]?.getD [] := by
    intro k
    rcases Nat.lt_or_ge j rows.length with lt | ge
    · rw [List.getElem?_append_left lt]
    · rw [List.getElem?_append_right ge, List.getElem?_eq_none ge, List.getElem?_replicate]
      split <;> rfl
  rw [← padded (i + 1 - rows.length), pushAt, List.getElem?_modify]
  split
  next same =>
    -- row `i` is there by now
    have long : j < (rows ++ List.replicate (i + 1 - rows.length) []).length := by
      rw [List.length_append, List.length_replicate]
      omega
    rw [List.getElem?_eq_getElem long]
    rfl
  next => exact congrArg (Option.getD · []) Option.map_id'

/-- The indices of a document have the same mentions. -/
structure Registered (d : Document) : Prop where
  byId : d.MentionsById
  once : d.predicted.flatten.Nodup
  listed : ∀ i id, id ∈ d.listOf i ↔ ∃ m, d.mention? id = some m ∧ m.sentence = i
  placed : ∀ id position, d.positions.find? id = some position → ∃ m, d.mention? id = some m
  headed : ∀ i head id, d.headed.find? (i, head) = some id →
    ∃ m, d.mention? id = some m ∧ m.sentence = i ∧ m.head = head
  heads : ∀ id m, d.mention? id = some m → (d.headed.find? (m.sentence, m.head)).isSome = true

theorem mem_listOf_iff {i : Nat} {id : MentionId} :
    id ∈ d.listOf i ↔ ∃ row, d.predicted[i]? = some row ∧ id ∈ row := by
  rw [listOf]
  cases d.predicted[i]? <;> simp

theorem mem_flatten_predicted_iff {id : MentionId} :
    id ∈ d.predicted.flatten ↔ ∃ i, id ∈ d.listOf i := by
  simp only [mem_listOf_iff, List.mem_flatten]
  constructor
  · rintro ⟨row, listed, mem⟩
    obtain ⟨i, row_i⟩ := List.mem_iff_getElem?.mp listed
    exact ⟨i, row, row_i, mem⟩
  · rintro ⟨i, row, row_i, mem⟩
    exact ⟨row, List.mem_of_getElem? row_i, mem⟩

namespace Registered

theorem mem_flatten_iff (h : d.Registered) {id : MentionId} :
    id ∈ d.predicted.flatten ↔ ∃ m, d.mention? id = some m := by
  rw [mem_flatten_predicted_iff]
  constructor
  · rintro ⟨i, mem⟩
    obtain ⟨m, found, -⟩ := (h.listed i id).mp mem
    exact ⟨m, found⟩
  · rintro ⟨m, found⟩
    exact ⟨m.sentence, (h.listed m.sentence id).mpr ⟨m, found, rfl⟩⟩

/-- One more mention, with a new id, goes into all indices. -/
theorem register (h : d.Registered) {m : Mention} (new : d.mention? m.id = none) (place : Nat) :
    (d.register place m).Registered := by
  have found (id : MentionId) : (d.register place m).mention? id =
      if id = m.id then some m else d.mention? id := Table.find?_insert ..
  have listOf (i : Nat) : (d.register place m).listOf i =
      if m.sentence = i then d.listOf i ++ [m.id] else d.listOf i := getD_pushAt ..
  have kept {id : MentionId} {m' : Mention} (before : d.mention? id = some m') :
      (d.register place m).mention? id = some m' := by
    rw [found, if_neg]
    · exact before
    · rintro rfl
      rw [new] at before
      cases before
  have self : (d.register place m).mention? m.id = some m := by rw [found, if_pos rfl]
  refine ⟨fun id m' found' => ?_, ?_, fun i id => ?_, fun id position placed => ?_,
    fun i head id headed => ?_, fun id m' found' => ?_⟩
  · rw [found] at found'
    split at found'
    next same =>
      cases found'
      exact same.symm
    next => exact h.byId id m' found'
  · have new : m.id ∉ d.predicted.flatten := by
      rw [h.mem_flatten_iff, new]
      simp
    exact (flatten_pushAt d.predicted m.sentence m.id).nodup_iff.mpr
      (List.nodup_cons.mpr ⟨new, h.once⟩)
  · have before : id ∈ d.listOf i ↔ ∃ m', d.mention? id = some m' ∧ m'.sentence = i := h.listed i id
    rw [listOf, found]
    by_cases same : id = m.id
    · rw [same, new] at before
      subst same
      by_cases here : m.sentence = i <;> simp_all
    · by_cases here : m.sentence = i <;> simp_all
  · have placed : (d.positions.insert m.id (m.sentence, place)).find? id = some position := placed
    rw [Table.find?_insert] at placed
    split at placed
    next same => exact ⟨m, same ▸ self⟩
    next =>
      obtain ⟨m', before⟩ := h.placed id position placed
      exact ⟨m', kept before⟩
  · have headed : (d.headed.insert (m.sentence, m.head) m.id).find? (i, head) = some id := headed
    rw [Table.find?_insert] at headed
    split at headed
    next same =>
      cases headed
      cases same
      exact ⟨m, self, rfl, rfl⟩
    next =>
      obtain ⟨m', before, place⟩ := h.headed i head id headed
      exact ⟨m', kept before, place⟩
  · have goal : ((d.headed.insert (m.sentence, m.head) m.id).find?
        (m'.sentence, m'.head)).isSome = true := by
      rw [Table.find?_insert]
      split
      next => rfl
      next other =>
        rw [found] at found'
        split at found'
        next =>
          cases found'
          exact absurd rfl other
        next => exact h.heads id m' found'
    exact goal

/-- The indices agree however far the registration comes. -/
theorem registerAll (h : d.Registered) {entries : List (Mention × Nat)}
    (once : (entries.map fun entry => entry.1.id).Nodup)
    (new : ∀ entry ∈ entries, d.mention? entry.1.id = none) :
    (d.registerAll entries).1.Registered := by
  induction entries generalizing d with
  | nil => exact h
  | cons entry rest ih =>
    obtain ⟨m, place⟩ := entry
    obtain ⟨apart, once⟩ := List.nodup_cons.mp once
    rw [Document.registerAll]
    split
    next => exact h
    next subtree? _ =>
      have first : d.mention? m.id = none := new (m, place) List.mem_cons_self
      refine ih (h.register (m := { m with subtree? }) first place) once fun later mem => ?_
      have other : later.1.id ≠ m.id := fun same => apart (List.mem_map.mpr ⟨later, mem, same⟩)
      exact (Table.find?_insert_of_ne _ _ other).trans (new later (List.mem_cons_of_mem _ mem))

end Registered

/-- No predicted mention has been registered yet, as when a document is made. -/
structure Unlisted (doc : Document) : Prop where
  predicted : doc.predicted = doc.sentences.map fun _ => []
  positions : doc.positions = {}
  headed : doc.headed = {}

theorem unlisted_ofSentences (id : String) (sentences : List Sentence) :
    (ofSentences id sentences).Unlisted :=
  ⟨rfl, rfl, rfl⟩

theorem registered_of_nothing (predicted : doc.predicted = doc.sentences.map fun _ => [])
    (mentions : doc.mentions = {}) (positions : doc.positions = {}) (headed : doc.headed = {}) :
    doc.Registered := by
  have absent (id : MentionId) : doc.mention? id = none := by
    rw [mention?, mentions, Table.find?_empty]
  have empty (i : Nat) : doc.listOf i = [] := by
    rw [listOf, predicted, List.getElem?_map]
    cases doc.sentences[i]? <;> rfl
  refine ⟨fun id m found => ?_, ?_, fun i id => ?_, fun id position placed => ?_,
    fun i head id headed' => ?_, fun id m found => ?_⟩
  · rw [absent] at found
    cases found
  · rw [predicted]
    simp
  · rw [empty, absent]
    simp
  · rw [positions, Table.find?_empty] at placed
    cases placed
  · rw [headed, Table.find?_empty] at headed'
    cases headed'
  · rw [absent] at found
    cases found

/-- Before predicted mentions are registered only the gold mentions change. -/
theorem takeGold_eq (doc : Document) (lex : Lexicon)
    (given : Option (List (List MentionSpan))) :
    ∃ gold? goldMentions, (doc.takeGold lex given).1 = { doc with gold?, goldMentions } := by
  unfold takeGold
  split
  · exact ⟨_, _, rfl⟩
  · dsimp only
    split
    · exact ⟨_, _, rfl⟩
    · rw [deriveAntecedents_eq]
      exact ⟨_, _, rfl⟩

/-- Taking up mentions stops before any is registered, or comes to registering mentions with different
ids. -/
theorem initializeMentions_fills (fresh : doc.Fresh) (lex : Lexicon) (policy : TwinPolicy)
    (raw : RawMentions) : ∃ gold? goldMentions,
      (doc.initializeMentions lex policy raw).1 = { doc with gold?, goldMentions } ∨
      ∃ rows : List (List Mention), (rows.flatten.map Mention.id).Nodup ∧
        (doc.initializeMentions lex policy raw).1 =
          (({ doc with gold?, goldMentions } : Document).fillMentions rows).1 := by
  obtain ⟨gold?, goldMentions, kept⟩ := doc.takeGold_eq lex raw.gold?
  unfold initializeMentions
  cases taking : doc.takeGold lex raw.gold? with
  | mk taken rest =>
    obtain ⟨next, stop?⟩ := rest
    rw [taking] at kept
    cases stop? with
    | some stop => exact ⟨gold?, goldMentions, .inl kept⟩
    | none =>
      dsimp only
      split
      next => exact ⟨gold?, goldMentions, .inl kept⟩
      next built building =>
        generalize pairing : taken.findTwins policy _ = twins
        obtain ⟨marked, rows⟩ := twins
        obtain ⟨gold, goldNumbered, builtNumbered, matching, -, marks⟩ :=
          findTwins_of_takeGold fresh taking building pairing
        refine ⟨goldIds doc.sentences gold raw.gold?,
          (claims rows.flatten).foldl (fun t id => t.modify id claimedGold)
            (withAntecedents (tableOf gold)),
          .inr ⟨rows, matching.ids_nodup goldNumbered builtNumbered, ?_⟩⟩
        rw [← marks]
        dsimp only
        split
        next filling => rw [filling]
        next filling => rw [filling]

theorem registered_initializeMentions (fresh : doc.Fresh) (unlisted : doc.Unlisted) (lex : Lexicon)
    (policy : TwinPolicy) (raw : RawMentions) :
    (doc.initializeMentions lex policy raw).1.Registered := by
  obtain ⟨gold?, goldMentions, eq | ⟨rows, once, eq⟩⟩ :=
    initializeMentions_fills fresh lex policy raw
  · rw [eq]
    exact registered_of_nothing unlisted.predicted fresh.mentions unlisted.positions
      unlisted.headed
  · rw [eq, fillMentions]
    have cleared : Registered { doc with
        gold?, goldMentions, predicted := doc.sentences.map fun _ => [] } :=
      registered_of_nothing rfl fresh.mentions unlisted.positions unlisted.headed
    have entries : ((rows.flatMap List.zipIdx).map fun entry => entry.1.id).Nodup := by
      rw [← map_fst_flatMap_zipIdx rows, List.map_map] at once
      exact once
    have filled := cleared.registerAll entries fun entry _ => by
      rw [mention?, fresh.mentions, Table.find?_empty]
    dsimp only
    split
    next filling =>
      rw [filling] at filled
      exact filled
    next filling =>
      rw [filling] at filled
      exact ⟨filled.byId, filled.once, filled.listed, filled.placed, filled.headed, filled.heads⟩

/-! ## Sorting -/

section Sorting

variable {a b : MentionId} {m m' : Mention} {ids : List MentionId}

theorem inOrder_eq (found : d.mention? a = some m) (found' : d.mention? b = some m') :
    d.inOrder a b = m.mayPrecede m' := by
  rw [inOrder, found, found']
  rfl

theorem precedes_eq (found : d.mention? a = some m) (found' : d.mention? b = some m') :
    d.precedes a b = m.isBefore m' := by
  rw [precedes, found, found']

theorem precedes_asymm (before : d.precedes a b = true) : d.precedes b a = false := by
  obtain ⟨knownA, knownB⟩ := known_of_precedes before
  rw [Table.mem_keys_iff] at knownA knownB
  obtain ⟨m, found⟩ := Option.isSome_iff_exists.mp knownA
  obtain ⟨m', found'⟩ := Option.isSome_iff_exists.mp knownB
  rw [precedes_eq found found'] at before
  rw [precedes_eq found' found, Bool.eq_false_iff]
  intro after
  have loop := Mention.isBefore_trans before after
  rw [Mention.isBefore_irrefl] at loop
  cases loop

/-- Ids stand in document order in one way only. -/
theorem eq_of_pairwise_precedes {ids' : List MentionId} (perm : ids.Perm ids')
    (ascending : ids.Pairwise fun a b => d.precedes a b = true)
    (ascending' : ids'.Pairwise fun a b => d.precedes a b = true) : ids = ids' := by
  refine perm.eq_of_pairwise (fun a b _ _ before after => ?_) ascending ascending'
  rw [precedes_asymm before] at after
  cases after

theorem exists_map_id (byId : d.MentionsById)
    (known : ∀ id ∈ ids, ∃ m, d.mention? id = some m) :
    ∃ ms : List Mention, ms.map Mention.id = ids ∧ ∀ m ∈ ms, d.mention? m.id = some m := by
  induction ids with
  | nil => exact ⟨[], rfl, fun m mem => absurd mem List.not_mem_nil⟩
  | cons id rest ih =>
    obtain ⟨⟨m, found⟩, known⟩ := List.forall_mem_cons.mp known
    obtain ⟨ms, same, all⟩ := ih known
    have first := byId id m found
    refine ⟨m :: ms, ?_, List.forall_mem_cons.mpr ⟨?_, all⟩⟩
    · rw [List.map_cons, first, same]
    · rw [first]
      exact found

/-- Sorting ids of mentions sorts the mentions. -/
theorem pairwise_mergeSort_inOrder (byId : d.MentionsById) (once : ids.Nodup)
    (known : ∀ id ∈ ids, ∃ m, d.mention? id = some m) :
    (ids.mergeSort d.inOrder).Pairwise fun a b => d.precedes a b = true := by
  obtain ⟨ms, rfl, found⟩ := exists_map_id byId known
  have order : ∀ m ∈ ms, ∀ m' ∈ ms, m.mayPrecede m' = d.inOrder m.id m'.id :=
    fun m mem m' mem' => (inOrder_eq (found m mem) (found m' mem')).symm
  rw [← List.map_mergeSort order, List.pairwise_map]
  refine (Mention.pairwise_sorted once).imp_of_mem fun {m m'} mem mem' before => ?_
  rw [precedes_eq (found m (List.mem_mergeSort.mp mem)) (found m' (List.mem_mergeSort.mp mem'))]
  exact before

end Sorting

theorem MentionsById.map_id_values (byId : d.MentionsById) :
    d.mentions.values.map Mention.id = d.mentions.keys := by
  rw [Table.values, Table.keys, List.map_map]
  refine List.map_congr_left fun entry listed => ?_
  exact byId entry.1 entry.2 ((Table.mem_entries_iff _ _ _).mp listed)

/-- Where the lists one after the other are in document order, they are the table sorted. -/
theorem map_id_sorted_values (byId : d.MentionsById)
    (listed : d.predicted.flatten.Perm d.mentions.keys)
    (ascending : d.predicted.flatten.Pairwise fun a b => d.precedes a b = true) :
    (d.mentions.values.mergeSort Mention.mayPrecede).map Mention.id = d.predicted.flatten := by
  have perm := (d.mentions.values.mergeSort_perm Mention.mayPrecede).map Mention.id
  rw [byId.map_id_values] at perm
  refine eq_of_pairwise_precedes (perm.trans listed.symm) (List.pairwise_map.mpr ?_) ascending
  have once : (d.mentions.values.map Mention.id).Nodup := by
    rw [byId.map_id_values]
    exact d.mentions.nodup_keys
  refine (Mention.pairwise_sorted once).imp_of_mem fun {m m'} mem mem' before => ?_
  have found := (byId.mem_values_iff m m.id).mp ⟨List.mem_mergeSort.mp mem, rfl⟩
  have found' := (byId.mem_values_iff m' m'.id).mp ⟨List.mem_mergeSort.mp mem', rfl⟩
  rw [precedes_eq found found']
  exact before

/-- One mention gets its place. -/
def place (d : Document) (entry : MentionId × Nat) : Document :=
  d.modifyMention entry.1 fun m => { m with place? := some entry.2 }

section Places

variable {ids : List MentionId} {id : MentionId}

theorem mention?_place (d : Document) (entry : MentionId × Nat) (id : MentionId) :
    (d.place entry).mention? id = if id = entry.1
      then (d.mention? id).map fun m => { m with place? := some entry.2 } else d.mention? id :=
  Table.find?_modify ..

theorem mention?_foldl_place_of_not_mem (other : id ∉ ids) (first : Nat) (d : Document) :
    ((ids.zipIdx first).foldl place d).mention? id = d.mention? id := by
  induction ids generalizing first d with
  | nil => rfl
  | cons id' rest ih =>
    obtain ⟨ne, other⟩ := not_or.mp (mt List.mem_cons.mpr other)
    rw [List.zipIdx_cons, List.foldl_cons, ih other, mention?_place, if_neg ne]

theorem mention?_foldl_place (once : ids.Nodup) {j : Nat} (at_j : ids[j]? = some id) (first : Nat)
    (d : Document) : ((ids.zipIdx first).foldl place d).mention? id =
      (d.mention? id).map fun m => { m with place? := some (first + j) } := by
  induction ids generalizing first d j with
  | nil => cases at_j
  | cons id' rest ih =>
    obtain ⟨new, once⟩ := List.nodup_cons.mp once
    rw [List.zipIdx_cons, List.foldl_cons]
    cases j with
    | zero =>
      cases at_j
      rw [mention?_foldl_place_of_not_mem new, mention?_place, if_pos rfl]
      rfl
    | succ j =>
      have later : rest[j]? = some id := at_j
      have ne : id ≠ id' := by
        rintro rfl
        exact new (List.mem_of_getElem? later)
      rw [ih once later, mention?_place, if_neg ne, Nat.add_assoc, Nat.add_comm 1]

end Places

namespace Registered

theorem listed_perm (h : d.Registered) : d.predicted.flatten.Perm d.mentions.keys := by
  refine (List.perm_ext_iff_of_nodup h.once d.mentions.nodup_keys).mpr fun id => ?_
  rw [h.mem_flatten_iff, Table.mem_keys_iff, Option.isSome_iff_exists]
  rfl

/-- Sentences follow one another, so that sorted lists do. -/
theorem pairwise_flatten (h : d.Registered)
    (ascending : ∀ row ∈ d.predicted, row.Pairwise fun a b => d.precedes a b = true) :
    d.predicted.flatten.Pairwise fun a b => d.precedes a b = true := by
  refine List.pairwise_flatten.mpr ⟨ascending, List.pairwise_iff_getElem.mpr ?_⟩
  intro i j boundI boundJ lt a memA b memB
  have inI := mem_listOf_iff.mpr ⟨_, List.getElem?_eq_getElem boundI, memA⟩
  have inJ := mem_listOf_iff.mpr ⟨_, List.getElem?_eq_getElem boundJ, memB⟩
  obtain ⟨m, found, rfl⟩ := (h.listed i a).mp inI
  obtain ⟨m', found', rfl⟩ := (h.listed j b).mp inJ
  rw [precedes_eq found found']
  exact Mention.isBefore_of_sentence_lt lt

end Registered

/-- The places given out at the end are those in the lists one after the other. -/
theorem place?_assignPlaces (byId : d.MentionsById)
    (listed : d.predicted.flatten.Perm d.mentions.keys)
    (ascending : d.predicted.flatten.Pairwise fun a b => d.precedes a b = true) {j : Nat}
    {id : MentionId} (at_j : d.predicted.flatten[j]? = some id) :
    (d.assignPlaces.mention? id).bind Mention.place? = some j := by
  have placed : d.assignPlaces = (d.predicted.flatten.zipIdx).foldl place d := by
    rw [← map_id_sorted_values byId listed ascending]
    rfl
  have once := listed.nodup_iff.mpr d.mentions.nodup_keys
  have known := listed.subset (List.mem_of_getElem? at_j)
  rw [Table.mem_keys_iff] at known
  obtain ⟨m, found⟩ := Option.isSome_iff_exists.mp known
  have found : d.mention? id = some m := found
  rw [placed, mention?_foldl_place once at_j, found, Nat.zero_add]
  rfl

theorem predicted_reorderMentions (d : Document) :
    d.reorderMentions.predicted = d.predicted.map fun ids => ids.mergeSort d.inOrder :=
  rfl

/-- The places in some lists, each under its id. -/
def placesOf (rows : List (List MentionId)) : List (MentionId × Position) :=
  rows.zipIdx.flatMap fun (ids, i) => ids.zipIdx.map fun (id, j) => (id, (i, j))

theorem mem_placesOf_iff {rows : List (List MentionId)} {id : MentionId} {i j : Nat} :
    (id, (i, j)) ∈ placesOf rows ↔ (rows[i]?.bind fun row => row[j]?) = some id := by
  simp only [placesOf, List.mem_flatMap, List.mem_map, Prod.exists, List.mem_zipIdx_iff_getElem?,
    Prod.mk.injEq, Option.bind_eq_some_iff]
  constructor
  · rintro ⟨row, _, row_i, _, _, at_j, rfl, rfl, rfl⟩
    exact ⟨row, row_i, at_j⟩
  · rintro ⟨row, row_i, at_j⟩
    exact ⟨row, i, row_i, id, j, at_j, rfl, rfl, rfl⟩

theorem map_fst_placesOf (rows : List (List MentionId)) :
    (placesOf rows).map Prod.fst = rows.flatten := by
  have numbered (row : List MentionId) (i : Nat) :
      (row.zipIdx.map fun entry => (entry.1, (i, entry.2))).map Prod.fst = row := by
    rw [List.map_map]
    exact List.zipIdx_map_fst 0 row
  have outer : rows.zipIdx.flatMap Prod.fst = rows.flatten := by
    rw [List.flatMap_def, List.zipIdx_map_fst]
  rw [placesOf, List.map_flatMap, ← outer]
  exact List.flatMap_congr fun entry _ => numbered entry.1 entry.2

/-- What sorting makes of a document `taken` whose mentions have been registered. -/
structure Sorted (taken d : Document) : Prop where
  /-- Every list keeps its ids, which stand for mentions of its sentence. -/
  permuted : List.Forall₂ List.Perm d.predicted taken.predicted
  listed : ∀ i row, d.predicted[i]? = some row → ∀ id ∈ row,
    ∃ m, d.mention? id = some m ∧ m.id = id ∧ m.sentence = i
  ascending : ∀ row ∈ d.predicted, row.Pairwise fun a b => d.precedes a b = true
  positions : ∀ id i j, d.positions.find? id = some (i, j) ↔
    (d.predicted[i]?.bind fun row => row[j]?) = some id
  allPositions : d.allPositions = d.positions
  /-- Heads lead to mentions that they head, and every listed mention has its head there. -/
  headed : ∀ i head id, d.headed.find? (i, head) = some id →
    ∃ row m, d.predicted[i]? = some row ∧ id ∈ row ∧ d.mention? id = some m ∧ m.head = head
  heads : ∀ i row, d.predicted[i]? = some row → ∀ id ∈ row, ∀ m, d.mention? id = some m →
    (d.headed.find? (i, m.head)).isSome = true
  /-- The places given out in the end, whatever has been written to the mentions by then, follow the
  lists. -/
  numbered : ∀ later : Document, later.predicted = d.predicted →
    KeepsMentions Mention.core d later → ∀ j id, d.predicted.flatten[j]? = some id →
      (later.assignPlaces.mention? id).bind Mention.place? = some j

namespace Registered

variable {taken : Document}

theorem once_reorderMentions (h : taken.Registered) :
    taken.reorderMentions.predicted.flatten.Nodup := by
  have perm := flatten_map_perm (fun row => row.mergeSort_perm taken.inOrder) taken.predicted
  rw [predicted_reorderMentions]
  exact perm.nodup_iff.mpr h.once

theorem listOf_reorderMentions (taken : Document) (i : Nat) :
    (taken.reorderMentions.listOf i).Perm (taken.listOf i) := by
  rw [listOf, predicted_reorderMentions, List.getElem?_map, listOf]
  cases taken.predicted[i]? with
  | none => exact .refl _
  | some row => exact row.mergeSort_perm taken.inOrder

theorem find?_positions_reorderMentions (h : taken.Registered) (id : MentionId) (i j : Nat) :
    taken.reorderMentions.positions.find? id = some (i, j) ↔
      (taken.reorderMentions.predicted[i]?.bind fun row => row[j]?) = some id := by
  have positions : taken.reorderMentions.positions =
      (placesOf taken.reorderMentions.predicted).foldl (fun t entry => t.insert entry.1 entry.2)
        taken.positions := rfl
  have once : ((placesOf taken.reorderMentions.predicted).map Prod.fst).Nodup := by
    rw [map_fst_placesOf]
    exact h.once_reorderMentions
  rw [positions, Table.find?_foldl_insert_iff once, mem_placesOf_iff, map_fst_placesOf,
    or_iff_left]
  -- an id with a position stands for a mention, and every mention is listed
  rintro ⟨unlisted, before⟩
  obtain ⟨m, found⟩ := h.placed id _ before
  refine unlisted (mem_flatten_predicted_iff.mpr ⟨m.sentence, ?_⟩)
  rw [(listOf_reorderMentions taken m.sentence).mem_iff]
  exact (h.listed m.sentence id).mpr ⟨m, found, rfl⟩

theorem reorderMentions (h : taken.Registered) : taken.reorderMentions.Registered where
  byId := h.byId
  once := h.once_reorderMentions
  listed := by
    intro i id
    rw [(listOf_reorderMentions taken i).mem_iff]
    exact h.listed i id
  placed := by
    rintro id ⟨i, j⟩ placed
    rw [h.find?_positions_reorderMentions, Option.bind_eq_some_iff] at placed
    obtain ⟨row, row_i, at_j⟩ := placed
    have listed := mem_listOf_iff.mpr ⟨row, row_i, List.mem_of_getElem? at_j⟩
    rw [(listOf_reorderMentions taken i).mem_iff] at listed
    obtain ⟨m, found, -⟩ := (h.listed i id).mp listed
    exact ⟨m, found⟩
  headed := h.headed
  heads := h.heads

theorem sorted (h : taken.Registered) : Sorted taken taken.reorderMentions := by
  have sorted := h.reorderMentions
  have ascending : ∀ row ∈ taken.reorderMentions.predicted,
      row.Pairwise fun a b => taken.reorderMentions.precedes a b = true := by
    intro row mem
    rw [predicted_reorderMentions] at mem
    obtain ⟨ids, listed, rfl⟩ := List.mem_map.mp mem
    have known : ∀ id ∈ ids, ∃ m, taken.mention? id = some m :=
      fun id mem => h.mem_flatten_iff.mp (List.mem_flatten.mpr ⟨ids, listed, mem⟩)
    exact pairwise_mergeSort_inOrder h.byId ((List.nodup_flatten.mp h.once).1 ids listed) known
  refine ⟨?_, fun i row row_i id mem => ?_, ascending, h.find?_positions_reorderMentions, rfl,
    fun i head id headed => ?_, fun i row row_i id mem m found => ?_, ?_⟩
  · rw [predicted_reorderMentions]
    exact List.forall₂_map_left_iff.mpr (List.forall₂_same.mpr fun row _ => row.mergeSort_perm _)
  · obtain ⟨m, found, here⟩ := (sorted.listed i id).mp (mem_listOf_iff.mpr ⟨row, row_i, mem⟩)
    exact ⟨m, found, sorted.byId id m found, here⟩
  · obtain ⟨m, found, here, atHead⟩ := sorted.headed i head id headed
    obtain ⟨row, row_i, mem⟩ := mem_listOf_iff.mp ((sorted.listed i id).mpr ⟨m, found, here⟩)
    exact ⟨row, m, row_i, mem, found, atHead⟩
  · obtain ⟨m', found', here⟩ := (sorted.listed i id).mp (mem_listOf_iff.mpr ⟨row, row_i, mem⟩)
    cases found.symm.trans found'
    rw [← here]
    exact sorted.heads id m found
  · intro later predicted same j id at_j
    have listed : later.predicted.flatten.Perm later.mentions.keys := by
      rw [predicted]
      refine sorted.listed_perm.trans ?_
      refine (List.perm_ext_iff_of_nodup (Table.nodup_keys _) (Table.nodup_keys _)).mpr fun id => ?_
      rw [Table.mem_keys_iff, Table.mem_keys_iff]
      exact (Bool.eq_iff_iff.mp (same.isSome_eq id)).symm
    have byId : later.MentionsById := same.mentionsById (fun _ => rfl) sorted.byId
    rw [← predicted] at at_j
    refine place?_assignPlaces byId listed ?_ at_j
    rw [predicted]
    refine (sorted.pairwise_flatten ascending).imp fun before => ?_
    rw [precedes_of_keepsMentions same]
    exact before

end Registered

/-- The comparison of mentions orders mentions with different ids, the outer first, and sorting the
lists of a document by it leaves the indices of its mentions in agreement. -/
theorem reorderMentions_sorted (fresh : doc.Fresh) (unlisted : doc.Unlisted) (lex : Lexicon)
    (policy : TwinPolicy) (raw : RawMentions) :
    Mention.Orders Mention.documentOrder ∧
      Sorted (doc.initializeMentions lex policy raw).1
        (doc.initializeMentions lex policy raw).1.reorderMentions :=
  ⟨Mention.documentOrder_orders,
    (registered_initializeMentions fresh unlisted lex policy raw).sorted⟩

/-- A phrase is listed behind its noun, has the same head and takes the id of its twin, which is the
smaller one.  Sorting puts it first. -/
theorem reorderMentions_sorted_twin :
    let lex : Lexicon := ⟨{}, {}, {}, {}, {}⟩
    let doc := ofSentences "d" [
      { tokens := [.ofWord "the" "DT", .ofWord "old" "JJ", .ofWord "dog" "NN"] },
      { tokens := [.ofWord "it" "PRP", .ofWord "ran" "VBD"] }]
    let raw : RawMentions :=
      { predicted := [[{ start := 2, stop := 3 }, { start := 0, stop := 3 }],
          [{ start := 0, stop := 1 }]]
        gold? := some [[{ start := 0, stop := 3 }], []] }
    let taken := (doc.initializeMentions lex .strict raw).1
    doc.Fresh ∧ doc.Unlisted ∧ taken.predicted = [[1, 0], [3]] ∧
      taken.reorderMentions.predicted = [[0, 1], [3]] ∧
      Sorted taken taken.reorderMentions := by
  intro lex doc raw taken
  have fresh : doc.Fresh := fresh_ofSentences _ _
  have unlisted : doc.Unlisted := unlisted_ofSentences _ _
  have before : taken.predicted = [[1, 0], [3]] := by decide +kernel
  have order : taken.inOrder 1 0 = false := by decide +kernel
  have after : taken.reorderMentions.predicted = [[0, 1], [3]] := by
    rw [predicted_reorderMentions, before]
    simp [List.mergeSort, order]
  obtain ⟨-, sorted⟩ := reorderMentions_sorted fresh unlisted lex .strict raw
  exact ⟨fresh, unlisted, before, after, sorted⟩

end Document

end Discourse
