import Discourse.Proofs.Preparation.Building
/-!
# The search for twins

Whatever the policy, the twins of a sentence are sought among the gold mentions of that sentence
alone, and a gold mention is marked if a predicted mention of its own sentence has claimed it.  So
what a policy does to one row of mentions is all that is to be known of it
(`SeekingTwins.getElem?_findTwins`, `SeekingTwins.marked`).
-/

namespace Discourse

/-! ## The spans of a sentence -/

/-- The spans of a row that lie within the sentence. -/
def Sentence.spansInside (s : Sentence) (spans : List MentionSpan) : List (Nat × Nat) :=
  (spans.filter fun span => span.isWithin s).map fun span => (span.start, span.stop)

/-- What is listed under one number comes from the element that has the number. -/
theorem filter_flatMap_zipIdx {α β : Type} {f : α → Nat → List (Nat × β)}
    (own : ∀ a n, ∀ e ∈ f a n, e.1 = n) (as : List α) (start i : Nat) :
    ((as.zipIdx start).flatMap fun entry => f entry.1 entry.2).filter
      (fun e => e.1 == start + i) = (as[i]?.map fun a => f a (start + i)).getD [] := by
  induction as generalizing start i with
  | nil => rfl
  | cons a rest ih =>
    rw [List.zipIdx_cons, List.flatMap_cons, List.filter_append]
    cases i with
    | zero =>
      have here : (f a start).filter (fun e => e.1 == start + 0) = f a start := by
        refine List.filter_eq_self.mpr fun e mem => ?_
        exact beq_iff_eq.mpr (own a start e mem)
      have later : ((rest.zipIdx (start + 1)).flatMap fun entry => f entry.1 entry.2).filter
          (fun e => e.1 == start + 0) = [] := by
        refine List.filter_eq_nil_iff.mpr fun e mem => ?_
        obtain ⟨⟨b, n⟩, listed, mem⟩ := List.mem_flatMap.mp mem
        have number : e.1 = n := own b n e mem
        have above : start + 1 ≤ n := List.le_snd_of_mem_zipIdx listed
        rw [number, beq_iff_eq]
        omega
      rw [here, later, List.append_nil]
      rfl
    | succ i =>
      have here : (f a start).filter (fun e => e.1 == start + (i + 1)) = [] := by
        refine List.filter_eq_nil_iff.mpr fun e mem => ?_
        have number : e.1 = start := own a start e mem
        rw [number, beq_iff_eq]
        omega
      have number : start + (i + 1) = start + 1 + i := by omega
      rw [here, List.nil_append, number, ih, List.getElem?_cons_succ]

theorem filter_spansOf {sentences : List Sentence} {i : Nat} {s : Sentence}
    (at_i : sentences[i]? = some s) (rows : List (List MentionSpan)) :
    (spansOf sentences rows).filter (fun entry => entry.1 == i) =
      (rows[i]?.getD []).map fun span => (i, s, span) := by
  have own : ∀ (entry : Sentence × List MentionSpan) (n : Nat),
      ∀ e ∈ entry.2.map (fun span => (n, entry.1, span)), e.1 = n := by
    intro entry n e mem
    obtain ⟨span, -, rfl⟩ := List.mem_map.mp mem
    rfl
  have picked := filter_flatMap_zipIdx own (sentences.zip rows) 0 i
  rw [Nat.zero_add] at picked
  refine Eq.trans picked ?_
  rw [List.zip, List.getElem?_zipWith, at_i]
  cases rows[i]? <;> rfl

/-- The mentions of a sentence are those of its spans, in the order of the list. -/
theorem Numbered.map_span_filter {next : MentionId} {sentences : List Sentence}
    {rows : List (List MentionSpan)} {built : List Mention}
    (h : Numbered next (spansOf sentences rows) built) {i : Nat} {s : Sentence}
    (at_i : sentences[i]? = some s) :
    (built.filter fun m => m.sentence == i).map Mention.span =
      s.spansInside (rows[i]?.getD []) := by
  calc (built.filter fun m => m.sentence == i).map Mention.span
      = ((built.map Mention.site).filter fun site => site.1 == i).map Prod.snd := by
        rw [List.filter_map, List.map_map]
        rfl
    _ = (((spansOf sentences rows).filter fun entry => entry.1 == i).filter
          PlacedSpan.isWithin).map fun entry => (entry.2.2.start, entry.2.2.stop) := by
        rw [h.map_site, spansWithin, List.filter_map, List.map_map, List.filter_filter,
          List.filter_filter]
        refine congrArg _ (List.filter_congr fun entry _ => ?_)
        exact Bool.and_comm _ _
    _ = s.spansInside (rows[i]?.getD []) := by
        rw [filter_spansOf at_i, List.filter_map, List.map_map]
        rfl

/-- What an antecedent does not change is the same for the gold mentions that a table holds. -/
theorem HoldsGold.map_filterMap {β : Type} {t : Table MentionId Mention} {gold : List Mention}
    (h : HoldsGold t gold) (once : (gold.map Mention.id).Nodup) {f : Mention → β}
    (keeps : ∀ g antecedent?, f { g with antecedent? } = f g) {ms : List Mention}
    (sub : ms ⊆ gold) : ((ms.map Mention.id).filterMap t.find?).map f = ms.map f := by
  induction ms with
  | nil => rfl
  | cons m rest ih =>
    obtain ⟨mem, sub⟩ := List.cons_subset.mp sub
    obtain ⟨m', found⟩ := h.complete m mem
    obtain ⟨g, isGold, id, same⟩ := h.found m.id m' found
    have eq : g = m := List.inj_on_of_nodup_map once isGold mem id
    have first : f m' = f m := by rw [same, eq, keeps]
    rw [List.map_cons, List.filterMap_cons_some found, List.map_cons, ih sub, first, List.map_cons]

/-! ## Twins of nobody -/

theorem strictTwins_nil (row : List Mention) : strictTwins [] row = row := by
  induction row with
  | nil => rfl
  | cons m rest ih =>
    rw [strictTwins]
    exact congrArg (m :: ·) ih

theorem headTwins_nil (row : List Mention) : headTwins [] row = row := by
  induction row with
  | nil => rfl
  | cons m rest ih =>
    rw [headTwins, ih]
    split <;> rfl

theorem spanTwins_nil (row : List Mention) : spanTwins [] [] row = (row, []) := by
  induction row with
  | nil => rfl
  | cons m rest ih =>
    rw [spanTwins, List.find?_nil, ih]

/-- Without gold mentions nobody has a twin. -/
theorem TwinPolicy.pair_nil (policy : TwinPolicy) (row : List Mention) :
    policy.pair [] row = row := by
  cases policy with
  | strict => exact strictTwins_nil row
  | relaxed =>
    show headTwins (spanTwins [] [] row).2 (spanTwins [] [] row).1 = row
    rw [spanTwins_nil, headTwins_nil]

/-! ## The search -/

namespace Document

/-- The document with its gold mentions, and the predicted mentions that seek their twins there. -/
structure SeekingTwins (doc taken : Document) (lex : Lexicon) (raw : RawMentions)
    (next : MentionId) (gold built : List Mention) : Prop where
  taking : doc.takeGold lex raw.gold? = (taken, next, none)
  building : buildMentions lex next (spansOf taken.sentences raw.predicted) = (built, none)
  sentences : taken.sentences = doc.sentences
  holds : HoldsGold taken.goldMentions gold
  listed : taken.gold? = goldIds taken.sentences gold raw.gold?
  goldNumbered : Numbered 0 (spansOf taken.sentences (raw.gold?.getD [])) gold
  builtNumbered : Numbered gold.length (spansOf taken.sentences raw.predicted) built

/-- Where all given heads lie in their sentences the search for twins is reached. -/
theorem exists_seekingTwins {doc : Document} (fresh : doc.Fresh) (lex : Lexicon)
    {raw : RawMentions} (inside : ∀ entry ∈ doc.numberedSpans raw, entry.HeadInside) :
    ∃ taken next gold built, SeekingTwins doc taken lex raw next gold built := by
  obtain ⟨goldInside, predictedInside⟩ := List.forall_mem_append.mp inside
  obtain ⟨taken, taking, sentences⟩ := takeGold_of_headsInside lex goldInside
  rw [← sentences] at predictedInside
  obtain ⟨built, building, -⟩ :=
    exists_buildMentions lex (doc.goldSpans raw).length predictedInside
  obtain ⟨gold, numbered, next, frame⟩ := takeGold_cases fresh taking
  have holds : HoldsGold taken.goldMentions gold := by
    rw [frame]
    exact (HoldsGold.tableOf numbered.nodup).withAntecedents
  have listed : taken.gold? = goldIds taken.sentences gold raw.gold? := by rw [frame]
  have later := buildMentions_numbered building
  rw [next] at later
  rw [← sentences] at numbered
  exact ⟨taken, _, gold, built, taking, building, sentences, holds, listed, numbered, later⟩

namespace SeekingTwins

variable {doc taken : Document} {lex : Lexicon} {raw : RawMentions} {next : MentionId}
  {gold built row : List Mention} {i : Nat}

theorem getElem?_rowsOf (h : SeekingTwins doc taken lex raw next gold built) {s : Sentence}
    (at_i : doc.sentences[i]? = some s) :
    (rowsOf taken.sentences.length built)[i]? =
      some (built.filter fun m => m.sentence == i) := by
  have lt : i < taken.sentences.length := by
    rw [h.sentences]
    exact (List.getElem?_eq_some_iff.mp at_i).1
  rw [rowsOf, List.getElem?_map, List.getElem?_range lt, Option.map_some]

theorem map_span_row (h : SeekingTwins doc taken lex raw next gold built) {s : Sentence}
    (at_i : doc.sentences[i]? = some s) :
    (built.filter fun m => m.sentence == i).map Mention.span =
      s.spansInside (raw.predicted[i]?.getD []) :=
  h.builtNumbered.map_span_filter (h.sentences ▸ at_i)

theorem fresh_row (h : SeekingTwins doc taken lex raw next gold built) (i : Nat) :
    ∀ m ∈ built.filter fun m => m.sentence == i, m.hasTwin = false := by
  intro m mem
  exact h.builtNumbered.unclaimed m (List.mem_of_mem_filter mem)

theorem map_span_goldOf (h : SeekingTwins doc taken lex raw next gold built) {s : Sentence}
    (at_i : doc.sentences[i]? = some s) :
    (taken.goldOf i).map Mention.span = s.spansInside ((raw.gold?.getD [])[i]?.getD []) := by
  rw [goldOf, h.listed, row_goldIds h.goldNumbered,
    h.holds.map_filterMap h.goldNumbered.nodup (fun _ _ => rfl) (List.filter_subset_self gold)]
  exact h.goldNumbered.map_span_filter (h.sentences ▸ at_i)

/-- The gold mentions of a sentence stand in the order of their ids. -/
theorem ascending_goldOf (h : SeekingTwins doc taken lex raw next gold built) (i : Nat) :
    ((taken.goldOf i).map Mention.id).Pairwise (· < ·) := by
  have all : (gold.map Mention.id).Pairwise (· < ·) := by
    rw [h.goldNumbered.ids]
    exact List.pairwise_lt_range'
  rw [map_id_goldOf h.holds h.listed h.goldNumbered]
  exact all.sublist (List.filter_sublist.map Mention.id)

theorem nodup_goldOf (h : SeekingTwins doc taken lex raw next gold built) (i : Nat) :
    ((taken.goldOf i).map Mention.id).Nodup :=
  (h.ascending_goldOf i).imp Nat.ne_of_lt

/-- What the table of gold mentions has under an id has that id and no twin yet. -/
theorem of_find? (h : SeekingTwins doc taken lex raw next gold built) {id : MentionId}
    {g : Mention} (found : taken.goldMentions.find? id = some g) :
    g.id = id ∧ g.hasTwin = false := by
  obtain ⟨other, isGold, same, eq⟩ := h.holds.found id g found
  rw [eq]
  exact ⟨same, h.goldNumbered.unclaimed other isGold⟩

/-- The gold mentions of a sentence are those of the table that are in the sentence. -/
theorem mem_goldOf_iff (h : SeekingTwins doc taken lex raw next gold built) {g : Mention} :
    g ∈ taken.goldOf i ↔ taken.goldMentions.find? g.id = some g ∧ g.sentence = i := by
  rw [goldOf, h.listed, row_goldIds h.goldNumbered, List.mem_filterMap]
  constructor
  · rintro ⟨id, listed, found⟩
    obtain ⟨g', inRow, rfl⟩ := List.mem_map.mp listed
    obtain ⟨isGold', here⟩ := List.mem_filter.mp inRow
    obtain ⟨other, isGold, same, eq⟩ := h.holds.found g'.id g found
    -- the gold mention built with that id is the one in the table but for its antecedent
    have built : other = g' := List.inj_on_of_nodup_map h.goldNumbered.nodup isGold isGold' same
    refine ⟨(h.of_find? found).1 ▸ found, ?_⟩
    rw [eq, built]
    exact beq_iff_eq.mp here
  · rintro ⟨found, here⟩
    obtain ⟨other, isGold, same, eq⟩ := h.holds.found g.id g found
    refine ⟨g.id, List.mem_map.mpr ⟨other, List.mem_filter.mpr ⟨isGold, ?_⟩, same⟩, found⟩
    rw [eq] at here
    exact beq_iff_eq.mpr here

/-- The row of a sentence after its mentions have been matched. -/
theorem getElem?_findTwins (taken : Document) (policy : TwinPolicy) (rows : List (List Mention))
    (i : Nat) :
    (taken.findTwins policy rows).2[i]? = rows[i]?.map (policy.pair (taken.goldOf i)) := by
  rw [findTwins]
  split
  next absent =>
    have nobody : taken.goldOf i = [] := by
      rw [goldOf, Option.isNone_iff_eq_none.mp absent]
      rfl
    have same : policy.pair [] = fun row => row := funext policy.pair_nil
    rw [nobody, same, Option.map_id']
  next =>
    rw [List.getElem?_map, List.getElem?_zipIdx, Option.map_map, Nat.zero_add]
    rfl

/-- A gold mention can only be claimed by a mention of its own sentence. -/
theorem mem_claims_findTwins_iff (h : SeekingTwins doc taken lex raw next gold built)
    (policy : TwinPolicy) {out : List Mention} {g : Mention} (mem : g ∈ taken.goldOf i)
    (out_i : (taken.findTwins policy (rowsOf taken.sentences.length built)).2[i]? = some out) :
    g.id ∈ claims (taken.findTwins policy (rowsOf taken.sentences.length built)).2.flatten ↔
      g.id ∈ claims out := by
  constructor
  · intro claimed
    obtain ⟨m, listed, twin, same⟩ := mem_claims_iff.mp claimed
    obtain ⟨out', listed, mem'⟩ := List.mem_flatten.mp listed
    obtain ⟨j, out_j⟩ := List.mem_iff_getElem?.mp listed
    have claimed : g.id ∈ claims out' := mem_claims_iff.mpr ⟨m, mem', twin, same⟩
    rw [getElem?_findTwins] at out_j
    obtain ⟨row, row_j, rfl⟩ := Option.map_eq_some_iff.mp out_j
    have fresh : ∀ m ∈ row, m.hasTwin = false := by
      rw [eq_filter_of_rowsOf row_j]
      exact h.fresh_row j
    have ids := ((policy.pair_matching (h.nodup_goldOf j) fresh).claims_subperm fresh).subset
      claimed
    obtain ⟨other, inRow, sameId⟩ := List.mem_map.mp ids
    -- the gold mention with the id is of sentence `j` and of sentence `i`
    obtain ⟨found, there⟩ := h.mem_goldOf_iff.mp inRow
    obtain ⟨found', here⟩ := h.mem_goldOf_iff.mp mem
    rw [sameId, found'] at found
    cases found
    obtain rfl : i = j := here.symm.trans there
    rw [getElem?_findTwins, row_j] at out_i
    cases out_i
    exact claimed
  · intro claimed
    obtain ⟨m, listed, twin, same⟩ := mem_claims_iff.mp claimed
    exact mem_claims_iff.mpr
      ⟨m, List.mem_flatten.mpr ⟨out, List.mem_of_getElem? out_i, listed⟩, twin, same⟩

/-- A gold mention is marked exactly if a mention of its sentence has claimed it. -/
theorem marked (h : SeekingTwins doc taken lex raw next gold built) (policy : TwinPolicy)
    {out : List Mention} {g : Mention} (mem : g ∈ taken.goldOf i)
    (out_i : (taken.findTwins policy (rowsOf taken.sentences.length built)).2[i]? = some out) :
    ∃ g', (taken.findTwins policy (rowsOf taken.sentences.length built)).1.goldMentions.find? g.id =
      some g' ∧ (g'.hasTwin = true ↔ g.id ∈ claims out) := by
  obtain ⟨found, -⟩ := h.mem_goldOf_iff.mp mem
  have new := (h.of_find? found).2
  rw [← h.mem_claims_findTwins_iff policy mem out_i]
  cases pairing : taken.findTwins policy (rowsOf taken.sentences.length built) with
  | mk marked rows =>
    have frame := (findTwins_cases h.holds h.listed h.goldNumbered h.builtNumbered pairing).2.2
    rw [frame]
    show ∃ g', ((claims rows.flatten).foldl (fun t id => t.modify id claimedGold)
      taken.goldMentions).find? g.id = some g' ∧ _
    rw [Table.find?_foldl_modify (fun _ => claimedGold) (fun _ _ => rfl), found]
    split
    next claimed => exact ⟨_, rfl, iff_of_true rfl claimed⟩
    next unclaimed => exact ⟨_, rfl, iff_of_false (Bool.eq_false_iff.mp new) unclaimed⟩

end SeekingTwins

end Document

end Discourse
