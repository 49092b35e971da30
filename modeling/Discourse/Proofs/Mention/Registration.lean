import Discourse.Proofs.GoldLink.Closure
import Discourse.Proofs.Mention.Claiming
/-!
# Registration

What a document has when its mentions have been taken up (`Document.TakenUp`): gold mentions
numbered from 0, predicted mentions numbered after them, and a matching of the two by which
predicted mentions have taken over gold ids.  Each stage is opened once here, and all that is said
about mention ids elsewhere is read off from the structure.
-/

namespace Discourse

/-- The table of some mentions by id. -/
def tableOf (ms : List Mention) : Table MentionId Mention :=
  Table.ofList (ms.map fun m => (m.id, m))

theorem tableOf_eq_foldl (ms : List Mention) :
    tableOf ms = ms.foldl (fun t m => t.insert m.id m) {} := by
  rw [tableOf, Table.ofList, List.foldl_map]

section TableOf

variable {ms : List Mention}

theorem find?_tableOf_iff (once : (ms.map Mention.id).Nodup) (id : MentionId) (m : Mention) :
    (tableOf ms).find? id = some m ↔ m ∈ ms ∧ m.id = id := by
  have keys : ((ms.map fun m => (m.id, m)).map Prod.fst).Nodup := by
    rw [List.map_map]
    exact once
  rw [tableOf, Table.find?_ofList_iff keys]
  constructor
  · intro mem
    obtain ⟨m', mem', eq⟩ := List.mem_map.mp mem
    cases eq
    exact ⟨mem', rfl⟩
  · rintro ⟨mem, rfl⟩
    exact List.mem_map_of_mem mem

theorem entries_tableOf_perm (once : (ms.map Mention.id).Nodup) :
    (tableOf ms).entries.Perm (ms.map fun m => (m.id, m)) := by
  refine Table.perm_entries_ofList ?_
  rw [List.map_map]
  exact once

theorem values_tableOf_perm (once : (ms.map Mention.id).Nodup) :
    (tableOf ms).values.Perm ms := by
  have perm := (entries_tableOf_perm once).map Prod.snd
  rw [List.map_map] at perm
  exact perm.trans (List.Perm.of_eq (List.map_id ms))

theorem keys_tableOf_perm (once : (ms.map Mention.id).Nodup) :
    (tableOf ms).keys.Perm (ms.map Mention.id) := by
  have perm := (entries_tableOf_perm once).map Prod.fst
  rw [List.map_map] at perm
  exact perm

theorem values_tableOf (ascending : (ms.map Mention.id).Pairwise (· < ·)) :
    (tableOf ms).values = ms := by
  have once : (ms.map Mention.id).Nodup := ascending.imp Nat.ne_of_lt
  have entries : (tableOf ms).entries = ms.map fun m => (m.id, m) := by
    refine (entries_tableOf_perm once).eq_of_pairwise ?_ (tableOf ms).sorted ?_
    · intro a b _ _ lt gt
      have lt := KeyOrder.trans lt gt
      rw [KeyOrder.irrefl] at lt
      cases lt
    · refine List.pairwise_map.mpr ((List.pairwise_map.mp ascending).imp fun lt => ?_)
      exact Nat.blt_eq.mpr lt
  rw [Table.values, entries, List.map_map]
  exact List.map_id ms

end TableOf

/-- A mention without its noun phrase in the parse. -/
def Mention.withoutTree (m : Mention) : Mention := { m with subtree? := none }

section Trees

variable {filled out : List Mention}

theorem claims_eq_of_trees (same : filled.map Mention.withoutTree = out.map Mention.withoutTree) :
    claims filled = claims out := by
  have claims_trees : ∀ ms : List Mention, claims (ms.map Mention.withoutTree) = claims ms := by
    intro ms
    rw [claims, claims, List.filter_map, List.map_map]
    rfl
  rw [← claims_trees filled, same, claims_trees]

/-- Noun phrases change nothing about a matching. -/
theorem Matching.of_trees {gold left row : List Mention} (h : Matching gold left row out)
    (same : filled.map Mention.withoutTree = out.map Mention.withoutTree) :
    Matching gold left row filled where
  sites := by
    have sites := congrArg (List.map Mention.site) same
    rw [List.map_map, List.map_map] at sites
    exact Eq.trans sites h.sites
  claimed := by
    rw [claims_eq_of_trees same]
    exact h.claimed
  unclaimed := by
    have unclaiming_trees : ∀ ms : List Mention,
        unclaiming (ms.map Mention.withoutTree) = unclaiming ms := by
      intro ms
      rw [unclaiming, unclaiming, List.filter_map, List.map_map]
      rfl
    rw [← unclaiming_trees filled, same, unclaiming_trees]
    exact h.unclaimed

end Trees

/-! ## Gold mentions -/

/-- One gold mention gets the antecedent last seen in its cluster, and is seen itself. -/
def deriveStep (state : Table MentionId Mention × Table Nat MentionId) (g : Mention) :
    Table MentionId Mention × Table Nat MentionId :=
  match g.goldCluster? with
  | none => state
  | some cluster =>
    (state.1.modify g.id fun m => { m with antecedent? := state.2.find? cluster },
      state.2.insert cluster g.id)

/-- Gold mentions with the antecedents that follow from their clusters, if none is given. -/
def withAntecedents (t : Table MentionId Mention) : Table MentionId Mention :=
  if t.values.any fun g => g.antecedent?.isSome then t else (t.values.foldl deriveStep (t, {})).1

theorem Document.deriveAntecedents_eq (doc : Document) :
    doc.deriveAntecedents = { doc with goldMentions := withAntecedents doc.goldMentions } := by
  unfold deriveAntecedents withAntecedents
  split <;> rfl

/-- A table has the gold mentions built, each at its id and the same but for its antecedent. -/
structure HoldsGold (t : Table MentionId Mention) (gold : List Mention) : Prop where
  found : ∀ id m, t.find? id = some m →
    ∃ g ∈ gold, g.id = id ∧ m = { g with antecedent? := m.antecedent? }
  complete : ∀ g ∈ gold, ∃ m, t.find? g.id = some m

namespace HoldsGold

variable {t : Table MentionId Mention} {gold : List Mention}

theorem tableOf (once : (gold.map Mention.id).Nodup) : HoldsGold (tableOf gold) gold where
  found := by
    intro id m found
    obtain ⟨mem, eq⟩ := (find?_tableOf_iff once id m).mp found
    exact ⟨m, mem, eq, rfl⟩
  complete := by
    intro g mem
    exact ⟨g, (find?_tableOf_iff once g.id g).mpr ⟨mem, rfl⟩⟩

theorem modify (h : HoldsGold t gold) (id : MentionId) (antecedent? : Option MentionId) :
    HoldsGold (t.modify id fun m => { m with antecedent? }) gold where
  found := by
    intro id' m found
    rw [Table.find?_modify] at found
    split at found
    next =>
      obtain ⟨m', before, rfl⟩ := Option.map_eq_some_iff.mp found
      obtain ⟨g, mem, eq, same⟩ := h.found id' m' before
      refine ⟨g, mem, eq, ?_⟩
      rw [same]
    next => exact h.found id' m found
  complete := by
    intro g mem
    obtain ⟨m, found⟩ := h.complete g mem
    rw [Table.find?_modify]
    split
    next =>
      rw [found]
      exact ⟨_, rfl⟩
    next => exact ⟨m, found⟩

theorem withAntecedents (h : HoldsGold t gold) : HoldsGold (withAntecedents t) gold := by
  unfold Discourse.withAntecedents
  split
  next => exact h
  next =>
    refine List.foldlRecOn (motive := fun state : _ × Table Nat MentionId =>
      HoldsGold state.1 gold) _ _ h ?_
    intro state h g _
    unfold deriveStep
    split
    next => exact h
    next => exact h.modify g.id _

theorem id_eq (h : HoldsGold t gold) {id : MentionId} {m : Mention} (found : t.find? id = some m) :
    m.id = id := by
  obtain ⟨g, -, eq, same⟩ := h.found id m found
  rw [same]
  exact eq

/-- Looking up ids of gold mentions gives mentions of these ids. -/
theorem map_id_filterMap (h : HoldsGold t gold) {ms : List Mention} (sub : ms ⊆ gold) :
    ((ms.map Mention.id).filterMap t.find?).map Mention.id = ms.map Mention.id := by
  induction ms with
  | nil => rfl
  | cons m rest ih =>
    obtain ⟨mem, sub⟩ := List.cons_subset.mp sub
    obtain ⟨m', found⟩ := h.complete m mem
    rw [List.map_cons, List.filterMap_cons_some found, List.map_cons, ih sub, h.id_eq found]

end HoldsGold

namespace Document

variable {doc : Document}

/-- No mention has been taken up yet, as when a document is made. -/
structure Fresh (doc : Document) : Prop where
  gold : doc.gold? = none
  goldMentions : doc.goldMentions = {}
  mentions : doc.mentions = {}
  goldLinks : doc.goldLinks? = none

theorem fresh_ofSentences (id : String) (sentences : List Sentence) :
    (ofSentences id sentences).Fresh :=
  ⟨rfl, rfl, rfl, rfl⟩

/-- The ids of gold mentions in rows, if there are gold data. -/
def goldIds (sentences : List Sentence) (gold : List Mention)
    (gold? : Option (List (List MentionSpan))) : Option (List (List MentionId)) :=
  gold?.map fun _ => (rowsOf sentences.length gold).map fun row => row.map Mention.id

section GoldIds

variable {sentences : List Sentence} {gold : List Mention}
  {gold? : Option (List (List MentionSpan))}

theorem flatten_goldIds (numbered : Numbered 0 (spansOf sentences (gold?.getD [])) gold) :
    ((goldIds sentences gold gold?).getD []).flatten = gold.map Mention.id := by
  cases gold? with
  | none =>
    have nothing : gold = [] := by simpa [spansOf] using numbered.origins
    rw [nothing]
    rfl
  | some rows =>
    rw [goldIds, Option.map_some, Option.getD_some, ← List.map_flatten, numbered.flatten_rowsOf]

/-- Row `i` has the ids of the gold mentions of sentence `i`, also where there is no such row. -/
theorem row_goldIds (numbered : Numbered 0 (spansOf sentences (gold?.getD [])) gold) (i : Nat) :
    ((goldIds sentences gold gold?).getD [])[i]?.getD [] =
      (gold.filter fun g => g.sentence == i).map Mention.id := by
  cases gold? with
  | none =>
    have nothing : gold = [] := by simpa [spansOf] using numbered.origins
    rw [nothing]
    rfl
  | some rows =>
    rw [goldIds, Option.map_some, Option.getD_some, rowsOf]
    rcases Nat.lt_or_ge i sentences.length with lt | ge
    · simp [lt]
    · have nothing : (gold.filter fun g => g.sentence == i) = [] := by
        refine List.filter_eq_nil_iff.mpr fun g mem => ?_
        have lt := numbered.sentence_lt mem
        simp only [beq_iff_eq]
        omega
      simp [ge, nothing]

end GoldIds

theorem takeGold_cases (fresh : doc.Fresh) {lex : Lexicon}
    {gold? : Option (List (List MentionSpan))} {taken : Document} {next : MentionId}
    (ok : doc.takeGold lex gold? = (taken, next, none)) :
    ∃ gold, Numbered 0 (spansOf doc.sentences (gold?.getD [])) gold ∧ next = gold.length ∧
      taken = { doc with
        gold? := goldIds doc.sentences gold gold?
        goldMentions := withAntecedents (tableOf gold) } := by
  unfold takeGold at ok
  cases gold? with
  | none =>
    cases ok
    have nothing : spansOf doc.sentences [] = [] := by simp [spansOf]
    refine ⟨[], ?_, rfl, ?_⟩
    · rw [Option.getD_none, nothing]
      exact ⟨rfl, rfl, fun m mem => absurd mem List.not_mem_nil⟩
    · have empty : withAntecedents (tableOf []) = {} := rfl
      rw [empty, ← fresh.goldMentions, goldIds, Option.map_none, ← fresh.gold]
  | some rows =>
    dsimp only at ok
    cases built : buildMentions lex 0 (spansOf doc.sentences rows) with
    | mk gold stop? =>
      rw [built] at ok
      cases stop? with
      | some stop => cases ok
      | none =>
        cases ok
        refine ⟨gold, buildMentions_numbered built, rfl, ?_⟩
        rw [deriveAntecedents_eq, fresh.goldMentions, ← tableOf_eq_foldl]
        rfl

/-! ## Twins -/

/-- A gold mention that has been claimed. -/
def claimedGold (g : Mention) : Mention := { g with hasTwin := true }

section Twins

variable {taken : Document} {gold built : List Mention} {gold? : Option (List (List MentionSpan))}

theorem map_id_goldOf (holds : HoldsGold taken.goldMentions gold)
    (ids : taken.gold? = goldIds taken.sentences gold gold?)
    (numbered : Numbered 0 (spansOf taken.sentences (gold?.getD [])) gold) (i : Nat) :
    (taken.goldOf i).map Mention.id =
      (gold.filter fun g => g.sentence == i).map Mention.id := by
  rw [goldOf, ids, row_goldIds numbered]
  exact holds.map_id_filterMap (List.filter_subset_self gold)

/-- The gold mentions of all sentences are all the gold mentions. -/
theorem map_id_flatMap_goldOf (holds : HoldsGold taken.goldMentions gold)
    (ids : taken.gold? = goldIds taken.sentences gold gold?)
    (numbered : Numbered 0 (spansOf taken.sentences (gold?.getD [])) gold) :
    ((rowsOf taken.sentences.length built).zipIdx.flatMap fun entry => taken.goldOf entry.2).map
      Mention.id = gold.map Mention.id := by
  have rows : (rowsOf taken.sentences.length built).zipIdx.map Prod.snd =
      List.range taken.sentences.length := by
    simp [rowsOf, List.zipIdx_map_snd, List.range_eq_range']
  calc ((rowsOf taken.sentences.length built).zipIdx.flatMap fun entry =>
          taken.goldOf entry.2).map Mention.id
      = (List.range taken.sentences.length).flatMap
          fun i => (taken.goldOf i).map Mention.id := by
        rw [← rows, List.map_flatMap, List.flatMap_map]
    _ = (List.range taken.sentences.length).flatMap
          fun i => (gold.filter fun g => g.sentence == i).map Mention.id :=
        List.flatMap_congr fun i _ => map_id_goldOf holds ids numbered i
    _ = (rowsOf taken.sentences.length gold).flatten.map Mention.id := by
        rw [rowsOf, ← List.flatMap_def, List.map_flatMap]
    _ = gold.map Mention.id := by rw [numbered.flatten_rowsOf]

theorem findTwins_cases (holds : HoldsGold taken.goldMentions gold)
    (ids : taken.gold? = goldIds taken.sentences gold gold?)
    (numbered : Numbered 0 (spansOf taken.sentences (gold?.getD [])) gold)
    {predicted : List (List MentionSpan)}
    (later : Numbered gold.length (spansOf taken.sentences predicted) built)
    {policy : TwinPolicy} {marked : Document} {rows : List (List Mention)}
    (ok : taken.findTwins policy (rowsOf taken.sentences.length built) = (marked, rows)) :
    Matching gold [] built rows.flatten ∧
      (∀ m ∈ rows.flatten, m.hasTwin = true → ∃ g ∈ gold, g.id = m.id ∧ g.sentence = m.sentence) ∧
      marked = { taken with
        goldMentions := (claims rows.flatten).foldl (fun t id => t.modify id claimedGold)
          taken.goldMentions } := by
  unfold findTwins at ok
  split at ok
  next =>
    cases ok
    rw [later.flatten_rowsOf, claims_eq_nil later.unclaimed]
    refine ⟨.unchanged, fun m mem twin => ?_, rfl⟩
    rw [later.unclaimed m mem] at twin
    cases twin
  next =>
    cases ok
    have once : ∀ i, ((taken.goldOf i).map Mention.id).Nodup := by
      intro i
      rw [map_id_goldOf holds ids numbered]
      exact numbered.nodup.sublist (List.filter_sublist.map Mention.id)
    have fresh : ∀ row ∈ rowsOf taken.sentences.length built, ∀ m ∈ row, m.hasTwin = false := by
      intro row listed m mem
      obtain ⟨i, -, rfl⟩ := List.mem_map.mp listed
      exact later.unclaimed m (List.mem_of_mem_filter mem)
    refine ⟨?_, ?_, rfl⟩
    · have all := policy.pair_rows_matching once fresh 0
      rw [later.flatten_rowsOf] at all
      exact all.of_map_id (map_id_flatMap_goldOf holds ids numbered)
    · intro m mem twin
      obtain ⟨out, listed, mem⟩ := List.mem_flatten.mp mem
      obtain ⟨⟨row, i⟩, placed, rfl⟩ := List.mem_map.mp listed
      have row_i : (rowsOf taken.sentences.length built)[i]? = some row :=
        List.mem_zipIdx_iff_getElem?.mp placed
      have freshRow := fresh row (List.mem_of_getElem? row_i)
      have pair := policy.pair_matching (once i) freshRow
      have claimed := (pair.claims_subperm freshRow).subset (mem_claims_iff.mpr ⟨m, mem, twin, rfl⟩)
      rw [map_id_goldOf holds ids numbered] at claimed
      obtain ⟨g, inRow, same⟩ := List.mem_map.mp claimed
      obtain ⟨isGold, here⟩ := List.mem_filter.mp inRow
      obtain ⟨m', mem', site⟩ := pair.site_mem mem
      have sentence : m.sentence = i := by
        rw [eq_filter_of_rowsOf row_i] at mem'
        have here : m'.sentence = i := by simpa using (List.mem_filter.mp mem').2
        exact (congrArg Prod.fst site).symm.trans here
      refine ⟨g, isGold, same, ?_⟩
      rw [sentence]
      simpa using here

end Twins

/-! ## Registering -/

theorem flatten_pushAt {α : Type} (rows : List (List α)) (i : Nat) (a : α) :
    (pushAt rows i a).flatten.Perm (a :: rows.flatten) := by
  have add : ∀ (rows : List (List α)) (i : Nat), i < rows.length →
      (rows.modify i fun row => row ++ [a]).flatten.Perm (a :: rows.flatten) := by
    intro rows
    induction rows with
    | nil =>
      intro i lt
      exact absurd lt (Nat.not_lt_zero i)
    | cons row rest ih =>
      intro i lt
      cases i with
      | zero =>
        rw [List.modify_zero_cons, List.flatten_cons, List.flatten_cons, List.append_assoc]
        exact List.perm_middle
      | succ i =>
        rw [List.modify_succ_cons, List.flatten_cons, List.flatten_cons]
        have ih := ih i (Nat.lt_of_succ_lt_succ lt)
        exact (ih.append_left row).trans List.perm_middle
  have long : i < (rows ++ List.replicate (i + 1 - rows.length) []).length := by
    rw [List.length_append, List.length_replicate]
    omega
  have empty : (rows ++ List.replicate (i + 1 - rows.length) []).flatten = rows.flatten := by simp
  have added := add _ i long
  rw [empty] at added
  exact added

theorem registerAll_cases {entries : List (Mention × Nat)} {start d : Document}
    (ok : start.registerAll entries = (d, none)) :
    ∃ filled : List Mention, filled.map Mention.withoutTree =
        entries.map (fun entry => entry.1.withoutTree) ∧
      d.predicted.flatten.Perm (filled.map Mention.id ++ start.predicted.flatten) ∧
      d = { start with
        positions := d.positions
        headed := d.headed
        predicted := d.predicted
        mentions := filled.foldl (fun t m => t.insert m.id m) start.mentions } := by
  induction entries generalizing start with
  | nil =>
    cases ok
    exact ⟨[], rfl, .refl _, rfl⟩
  | cons entry rest ih =>
    obtain ⟨m, place⟩ := entry
    rw [registerAll] at ok
    split at ok
    next => cases ok
    next subtree? _ =>
      obtain ⟨filled, same, listed, frame⟩ := ih ok
      refine ⟨{ m with subtree? } :: filled, ?_, ?_, ?_⟩
      · rw [List.map_cons, same, List.map_cons]
        rfl
      · refine listed.trans ?_
        have first : (start.register place { m with subtree? }).predicted.flatten.Perm
            (m.id :: start.predicted.flatten) := flatten_pushAt start.predicted m.sentence m.id
        refine (first.append_left _).trans ?_
        exact List.perm_middle
      · rw [frame]
        rfl

/-- Numbering the elements of rows leaves the rows one after the other. -/
theorem map_fst_flatMap_zipIdx {α : Type} (rows : List (List α)) :
    (rows.flatMap List.zipIdx).map Prod.fst = rows.flatten := by
  have numbered (row : List α) : row.zipIdx.map Prod.fst = row := List.zipIdx_map_fst 0 row
  rw [List.map_flatMap, List.flatMap_congr fun row _ => numbered row, List.flatMap_id']

theorem fillMentions_cases {start d : Document} {rows : List (List Mention)}
    (ok : start.fillMentions rows = (d, none)) :
    ∃ filled : List Mention,
      filled.map Mention.withoutTree = rows.flatten.map Mention.withoutTree ∧
      d.predicted.flatten.Perm (filled.map Mention.id) ∧
      d = { start with
        positions := d.positions
        headed := d.headed
        allPositions := d.allPositions
        predicted := d.predicted
        mentions := filled.foldl (fun t m => t.insert m.id m) start.mentions } := by
  unfold fillMentions at ok
  simp only at ok
  split at ok
  next => cases ok
  next filling =>
    cases ok
    obtain ⟨filled, same, listed, frame⟩ := registerAll_cases filling
    refine ⟨filled, ?_, ?_, ?_⟩
    · rw [same, ← map_fst_flatMap_zipIdx rows, List.map_map]
      rfl
    · have cleared : (start.sentences.map fun _ => ([] : List MentionId)).flatten = [] := by simp
      rw [cleared, List.append_nil] at listed
      exact listed
    · rw [frame]

/-- What the taking up of mentions leaves: the gold mentions and the predicted mentions as they were
built, and the predicted mentions after the matching. -/
structure TakenUp (doc d : Document) (raw : RawMentions) (count : Nat)
    (gold built filled : List Mention) : Prop where
  goldNumbered : Numbered 0 (spansOf doc.sentences (raw.gold?.getD [])) gold
  builtNumbered : Numbered gold.length (spansOf doc.sentences raw.predicted) built
  matching : Matching gold [] built filled
  paired : ∀ m ∈ filled, m.hasTwin = true → ∃ g ∈ gold, g.id = m.id ∧ g.sentence = m.sentence
  counted : count = filled.countP Mention.hasTwin
  goldLists : d.gold? = goldIds doc.sentences gold raw.gold?
  goldMentions : d.goldMentions = (claims filled).foldl (fun t id => t.modify id claimedGold)
    (withAntecedents (tableOf gold))
  mentions : d.mentions = tableOf filled
  predicted : d.predicted.flatten.Perm (filled.map Mention.id)
  goldLinks : d.goldLinks? = none

/-- Gold mentions are taken up, predicted mentions built and the twins found. -/
theorem findTwins_of_takeGold (fresh : doc.Fresh) {lex : Lexicon} {policy : TwinPolicy}
    {raw : RawMentions} {taken marked : Document} {next : MentionId} {built : List Mention}
    {rows : List (List Mention)} (taking : doc.takeGold lex raw.gold? = (taken, next, none))
    (building : buildMentions lex next (spansOf taken.sentences raw.predicted) = (built, none))
    (pairing : taken.findTwins policy (rowsOf taken.sentences.length built) = (marked, rows)) :
    ∃ gold, Numbered 0 (spansOf doc.sentences (raw.gold?.getD [])) gold ∧
      Numbered gold.length (spansOf doc.sentences raw.predicted) built ∧
      Matching gold [] built rows.flatten ∧
      (∀ m ∈ rows.flatten, m.hasTwin = true → ∃ g ∈ gold, g.id = m.id ∧ g.sentence = m.sentence) ∧
      marked = { doc with
        gold? := goldIds doc.sentences gold raw.gold?
        goldMentions := (claims rows.flatten).foldl (fun t id => t.modify id claimedGold)
          (withAntecedents (tableOf gold)) } := by
  obtain ⟨gold, goldNumbered, rfl, eq⟩ := takeGold_cases fresh taking
  have holds : HoldsGold taken.goldMentions gold := by
    rw [eq]
    exact (HoldsGold.tableOf goldNumbered.nodup).withAntecedents
  have ids : taken.gold? = goldIds taken.sentences gold raw.gold? := by rw [eq]
  have sentences : taken.sentences = doc.sentences := by rw [eq]
  rw [← sentences] at goldNumbered
  have builtNumbered := buildMentions_numbered building
  obtain ⟨matching, paired, marks⟩ := findTwins_cases holds ids goldNumbered builtNumbered pairing
  rw [sentences] at goldNumbered builtNumbered
  refine ⟨gold, goldNumbered, builtNumbered, matching, paired, ?_⟩
  rw [marks, eq]

/-- Mentions are taken up in four stages, none of which stops. -/
theorem stages_of_initializeMentions {lex : Lexicon} {policy : TwinPolicy} {raw : RawMentions}
    {d : Document} {count : Nat} (ok : doc.initializeMentions lex policy raw = (d, .ok count)) :
    ∃ taken next built marked rows, doc.takeGold lex raw.gold? = (taken, next, none) ∧
      buildMentions lex next (spansOf taken.sentences raw.predicted) = (built, none) ∧
      taken.findTwins policy (rowsOf taken.sentences.length built) = (marked, rows) ∧
      marked.fillMentions rows = (d, none) ∧ count = rows.flatten.countP Mention.hasTwin := by
  unfold initializeMentions at ok
  split at ok
  next => cases ok
  next taken next taking =>
    split at ok
    next => cases ok
    next built building =>
      generalize pairing : taken.findTwins policy _ = twins at ok
      obtain ⟨marked, rows⟩ := twins
      dsimp only at ok
      split at ok
      next => cases ok
      next filling =>
        cases ok
        exact ⟨taken, next, built, marked, rows, taking, building, pairing, filling, rfl⟩

theorem initializeMentions_cases (fresh : doc.Fresh) {lex : Lexicon} {policy : TwinPolicy}
    {raw : RawMentions} {d : Document} {count : Nat}
    (ok : doc.initializeMentions lex policy raw = (d, .ok count)) :
    ∃ gold built filled, TakenUp doc d raw count gold built filled := by
  obtain ⟨taken, next, built, marked, rows, taking, building, pairing, filling, rfl⟩ :=
    stages_of_initializeMentions ok
  obtain ⟨gold, goldNumbered, builtNumbered, matching, paired, marks⟩ :=
    findTwins_of_takeGold fresh taking building pairing
  obtain ⟨filled, same, listed, frame⟩ := fillMentions_cases filling
  have final : d = { doc with
      gold? := goldIds doc.sentences gold raw.gold?
      goldMentions := (claims rows.flatten).foldl (fun t id => t.modify id claimedGold)
        (withAntecedents (tableOf gold))
      positions := d.positions
      headed := d.headed
      allPositions := d.allPositions
      predicted := d.predicted
      mentions := filled.foldl (fun t m => t.insert m.id m) doc.mentions } := by
    rw [frame, marks]
  refine ⟨gold, built, filled, goldNumbered, builtNumbered, matching.of_trees same, ?_, ?_,
    congrArg Document.gold? final, ?_, ?_, listed,
    (congrArg Document.goldLinks? final).trans fresh.goldLinks⟩
  · intro m mem twin
    have mem : m.withoutTree ∈ rows.flatten.map Mention.withoutTree :=
      same ▸ List.mem_map_of_mem mem
    obtain ⟨m', mem, eq⟩ := List.mem_map.mp mem
    have twin : m'.hasTwin = true := (congrArg Mention.hasTwin eq :).trans twin
    obtain ⟨g, isGold, id, sentence⟩ := paired m' mem twin
    exact ⟨g, isGold, id.trans (congrArg Mention.id eq :),
      sentence.trans (congrArg Mention.sentence eq :)⟩
  · have twins := congrArg (List.countP Mention.hasTwin) same
    rw [List.countP_map, List.countP_map] at twins
    exact twins.symm
  · rw [claims_eq_of_trees same]
    exact congrArg Document.goldMentions final
  · rw [tableOf_eq_foldl, ← fresh.mentions]
    exact congrArg Document.mentions final

end Document

end Discourse
