import Discourse.Proofs.Mention.TwinSearch
/-!
# Strict twins

Under the strict policy a predicted mention claims the lowest id left among the gold mentions with
its span.  A claim takes the first id from the row of the ids with that span, sorted from the lowest
up, and leaves every other such row alone (`idsAt_leftAfter_self`, `idsAt_leftAfter_of_ne`).  So the
spans do not interfere, however they are mixed: the mention before which `k` mentions have the same
span claims the `k`-th id of the row, and nothing if the row is shorter (`getElem?_strictTwins`).
-/

namespace Discourse

/-- A mention as the twin of a gold mention, if there is one for it. -/
def Mention.claiming? (m : Mention) : Option MentionId → Mention
  | some gold => m.claiming gold
  | none => m

/-- The ids of the gold mentions with a span, from the lowest up. -/
def idsAt (pool : List Mention) (span : Nat × Nat) : List MentionId :=
  ((pool.filter fun g => g.span == span).map Mention.id).mergeSort fun a b => a ≤ b

/-- The gold mentions left over after a mention with a span. -/
def leftAfter (pool : List Mention) (span : Nat × Nat) : List Mention :=
  match smallest? ((pool.filter fun g => g.span == span).map Mention.id) with
  | some id => pool.eraseP fun g => g.id == id
  | none => pool

/-! ## The smallest number -/

section Smallest

variable {ns : List Nat} {n : Nat}

theorem smallest?_eq_none_iff : smallest? ns = none ↔ ns = [] := by
  cases ns with
  | nil => simp [smallest?]
  | cons k rest =>
    rw [smallest?]
    split <;> simp

theorem le_of_smallest? (h : smallest? ns = some n) : ∀ k ∈ ns, n ≤ k := by
  induction ns generalizing n with
  | nil => cases h
  | cons first rest ih =>
    intro k mem
    rw [smallest?] at h
    split at h
    next m found =>
      have least : n ≤ first ∧ n ≤ m := by
        cases h
        split <;> omega
      rcases List.mem_cons.mp mem with rfl | mem
      · exact least.1
      · exact Nat.le_trans least.2 (ih found k mem)
    next nothing =>
      cases h
      rw [smallest?_eq_none_iff.mp nothing, List.mem_singleton] at mem
      exact Nat.le_of_eq mem.symm

theorem pairwise_mergeSort_le (ns : List Nat) :
    (ns.mergeSort fun a b => a ≤ b).Pairwise (· ≤ ·) := by
  have pairs : (ns.mergeSort fun a b => a ≤ b).Pairwise fun a b => decide (a ≤ b) = true :=
    List.pairwise_mergeSort (by simpa using fun a b c : Nat => Nat.le_trans)
      (by simpa using Nat.le_total) ns
  simpa using pairs

/-- In sorted order the smallest number stands before all others. -/
theorem mergeSort_of_smallest? (h : smallest? ns = some n) :
    (ns.mergeSort fun a b => a ≤ b) = n :: (ns.erase n).mergeSort fun a b => a ≤ b := by
  refine List.Perm.eq_of_pairwise ?_ (pairwise_mergeSort_le ns) ?_ ?_
  · intro a b _ _ le ge
    exact Nat.le_antisymm le ge
  · refine List.pairwise_cons.mpr ⟨fun k mem => ?_, pairwise_mergeSort_le _⟩
    exact le_of_smallest? h k (List.mem_of_mem_erase (List.mem_mergeSort.mp mem))
  · have taken : ns.Perm (n :: ns.erase n) := List.perm_cons_erase (mem_of_smallest? h)
    exact (List.mergeSort_perm ns _).trans (taken.trans ((List.mergeSort_perm _ _).symm.cons n))

end Smallest

/-! ## One claim -/

section Step

variable {pool : List Mention} (span : Nat × Nat)

theorem head?_idsAt (pool : List Mention) :
    (idsAt pool span).head? = smallest? ((pool.filter fun g => g.span == span).map Mention.id) := by
  cases found : smallest? ((pool.filter fun g => g.span == span).map Mention.id) with
  | some id => rw [idsAt, mergeSort_of_smallest? found, List.head?_cons]
  | none => rw [idsAt, smallest?_eq_none_iff.mp found, List.mergeSort_nil, List.head?_nil]

theorem strictTwins_cons (pool : List Mention) (m : Mention) (rest : List Mention) :
    strictTwins pool (m :: rest) =
      m.claiming? (idsAt pool m.span).head? :: strictTwins (leftAfter pool m.span) rest := by
  rw [head?_idsAt, strictTwins, leftAfter]
  cases smallest? ((pool.filter fun g => g.span == m.span).map Mention.id) <;> rfl

theorem nodup_leftAfter (once : (pool.map Mention.id).Nodup) :
    ((leftAfter pool span).map Mention.id).Nodup := by
  rw [leftAfter]
  split
  · exact once.sublist (List.eraseP_sublist.map Mention.id)
  · exact once

/-- Where no id occurs twice, taking out the first mention of an id takes out all. -/
theorem eraseP_eq_filter_of_nodup (once : (pool.map Mention.id).Nodup) (id : MentionId) :
    (pool.eraseP fun g => g.id == id) = pool.filter fun g => g.id != id := by
  induction pool with
  | nil => rfl
  | cons g rest ih =>
    rw [List.map_cons, List.nodup_cons] at once
    cases same : g.id == id with
    | true =>
      have kept : (g.id != id) = false := by rw [bne, same, Bool.not_true]
      have others : ∀ other ∈ rest, (other.id != id) = true := by
        intro other mem
        refine bne_iff_ne.mpr fun eq => once.1 ?_
        rw [beq_iff_eq.mp same, ← eq]
        exact List.mem_map_of_mem mem
      simp only [List.eraseP_cons, List.filter_cons, same, kept, cond_true, Bool.false_eq_true,
        if_false, List.filter_eq_self.mpr others]
    | false =>
      have kept : (g.id != id) = true := by rw [bne, same, Bool.not_false]
      simp only [List.eraseP_cons, List.filter_cons, same, kept, cond_false, if_true, ih once.2]

theorem nodup_idsOf (once : (pool.map Mention.id).Nodup) :
    ((pool.filter fun g => g.span == span).map Mention.id).Nodup :=
  once.sublist (List.filter_sublist.map Mention.id)

/-- A claim takes the lowest id of its span. -/
theorem idsAt_leftAfter_self (once : (pool.map Mention.id).Nodup) :
    idsAt (leftAfter pool span) span = (idsAt pool span).tail := by
  cases found : smallest? ((pool.filter fun g => g.span == span).map Mention.id) with
  | some id =>
    have left : leftAfter pool span = pool.filter fun g => g.id != id := by
      rw [leftAfter, found]
      exact eraseP_eq_filter_of_nodup once id
    have ids : ((leftAfter pool span).filter fun g => g.span == span).map Mention.id =
        ((pool.filter fun g => g.span == span).map Mention.id).erase id := by
      rw [left, (nodup_idsOf span once).erase_eq_filter, List.filter_map, List.filter_filter,
        List.filter_filter]
      exact congrArg (List.map Mention.id) (List.filter_congr fun g _ => Bool.and_comm _ _)
    rw [idsAt, ids, idsAt, mergeSort_of_smallest? found, List.tail_cons]
  | none =>
    have left : leftAfter pool span = pool := by rw [leftAfter, found]
    have nothing : idsAt pool span = [] := by
      rw [idsAt, smallest?_eq_none_iff.mp found, List.mergeSort_nil]
    rw [left, nothing, List.tail_nil]

/-- A claim leaves the ids of all other spans. -/
theorem idsAt_leftAfter_of_ne (once : (pool.map Mention.id).Nodup) {other : Nat × Nat}
    (ne : other ≠ span) : idsAt (leftAfter pool span) other = idsAt pool other := by
  rw [leftAfter]
  split
  next id found =>
    obtain ⟨g, mem, rfl⟩ := List.mem_map.mp (mem_of_smallest? found)
    obtain ⟨listed, spanned⟩ := List.mem_filter.mp mem
    have kept : ((pool.filter fun e => e.id != g.id).filter fun e => e.span == other) =
        pool.filter fun e => e.span == other := by
      rw [List.filter_filter]
      refine List.filter_congr fun e mem => ?_
      cases here : e.span == other with
      | false => rfl
      | true =>
        have apart : e.id ≠ g.id := by
          intro same
          have eq : e = g := List.inj_on_of_nodup_map once mem listed same
          exact ne ((beq_iff_eq.mp here).symm.trans (eq ▸ beq_iff_eq.mp spanned))
        exact Bool.and_eq_true_iff.mpr ⟨rfl, bne_iff_ne.mpr apart⟩
    rw [idsAt, eraseP_eq_filter_of_nodup once, kept, idsAt]
  next => rfl

end Step

/-! ## A row of mentions -/

section Run

variable {pool row : List Mention}

@[simp] theorem Mention.span_claiming? (m : Mention) (id? : Option MentionId) :
    (m.claiming? id?).span = m.span := by
  cases id? <;> rfl

/-- Each mention claims the id whose turn it is among those with its span. -/
theorem getElem?_strictTwins (once : (pool.map Mention.id).Nodup) {j : Nat} {m : Mention}
    (at_j : row[j]? = some m) :
    (strictTwins pool row)[j]? = some (m.claiming?
      (idsAt pool m.span)[((row.map Mention.span).take j).count m.span]?) := by
  induction row generalizing pool j with
  | nil => cases at_j
  | cons first rest ih =>
    rw [strictTwins_cons]
    cases j with
    | zero =>
      cases at_j
      rw [List.getElem?_cons_zero, List.head?_eq_getElem?]
      rfl
    | succ j =>
      have later := ih (nodup_leftAfter first.span once) at_j
      rw [List.getElem?_cons_succ, later, List.map_cons, List.take_succ_cons]
      by_cases same : m.span = first.span
      · rw [same, idsAt_leftAfter_self first.span once, List.getElem?_tail, List.count_cons_self]
      · rw [idsAt_leftAfter_of_ne first.span once same, List.count_cons_of_ne (Ne.symm same)]

theorem claims_cons_claiming? {m : Mention} (new : m.hasTwin = false) (id? : Option MentionId)
    (ms : List Mention) : claims (m.claiming? id? :: ms) = id?.toList ++ claims ms := by
  cases id? with
  | some id => rfl
  | none => simp [claims, Mention.claiming?, new]

/-- The ids claimed at a span are its lowest ones, as many as there are mentions to claim them. -/
theorem claims_strictTwins_at (once : (pool.map Mention.id).Nodup)
    (fresh : ∀ m ∈ row, m.hasTwin = false) (span : Nat × Nat) :
    claims ((strictTwins pool row).filter fun m => m.span == span) =
      (idsAt pool span).take ((row.map Mention.span).count span) := by
  induction row generalizing pool with
  | nil => rfl
  | cons first rest ih =>
    obtain ⟨new, fresh⟩ := List.forall_mem_cons.mp fresh
    have later := ih (nodup_leftAfter first.span once) fresh
    rw [strictTwins_cons, List.map_cons]
    by_cases same : first.span = span
    · subst same
      rw [List.filter_cons_of_pos (by simp), claims_cons_claiming? new, later,
        idsAt_leftAfter_self first.span once, List.count_cons_self]
      cases idsAt pool first.span with
      | nil => rw [List.tail_nil, List.take_nil, List.take_nil]; rfl
      | cons id others => rw [List.head?_cons, List.tail_cons, List.take_succ_cons]; rfl
    · rw [List.filter_cons_of_neg (by simpa using same), later,
        idsAt_leftAfter_of_ne first.span once (Ne.symm same), List.count_cons_of_ne same]

end Run

/-! ## The ids of a span -/

theorem mem_take_iff_of_getElem? {ns : List Nat} (once : ns.Nodup) {k n : Nat}
    (at_k : ns[k]? = some n) {bound : Nat} : n ∈ ns.take bound ↔ k < bound := by
  obtain ⟨lt, rfl⟩ := List.getElem?_eq_some_iff.mp at_k
  rw [List.mem_take_iff_idxOf_lt (List.getElem_mem lt), once.idxOf_getElem k lt]

section Ids

variable {pool : List Mention} {span : Nat × Nat}

theorem mem_idsAt_iff {id : MentionId} :
    id ∈ idsAt pool span ↔ ∃ g ∈ pool, g.span = span ∧ g.id = id := by
  simp [idsAt, and_assoc]

theorem length_idsAt : (idsAt pool span).length = (pool.map Mention.span).count span := by
  rw [idsAt, List.length_mergeSort, List.length_map, ← List.countP_eq_length_filter, List.count,
    List.countP_map]
  rfl

theorem idsAt_ascending (once : (pool.map Mention.id).Nodup) :
    (idsAt pool span).Pairwise (· < ·) := by
  have distinct : (idsAt pool span).Nodup :=
    (List.mergeSort_perm _ _).nodup_iff.mpr (nodup_idsOf span once)
  exact ((pairwise_mergeSort_le _).and distinct).imp fun both => Nat.lt_of_le_of_ne both.1 both.2

/-- A gold mention has been claimed if its id is among the lowest ones of its span. -/
theorem mem_claims_strictTwins_iff {row : List Mention} (once : (pool.map Mention.id).Nodup)
    (fresh : ∀ m ∈ row, m.hasTwin = false) {g : Mention} (isGold : g ∈ pool) :
    g.id ∈ claims (strictTwins pool row) ↔
      g.id ∈ (idsAt pool g.span).take ((row.map Mention.span).count g.span) := by
  constructor
  · intro claimed
    obtain ⟨m, mem, twin, same⟩ := mem_claims_iff.mp claimed
    have low : g.id ∈ (idsAt pool m.span).take ((row.map Mention.span).count m.span) := by
      rw [← claims_strictTwins_at once fresh m.span]
      exact mem_claims_iff.mpr ⟨m, List.mem_filter.mpr ⟨mem, beq_self_eq_true m.span⟩, twin, same⟩
    obtain ⟨g', isGold', spanned, id⟩ := mem_idsAt_iff.mp (List.mem_of_mem_take low)
    have eq : g' = g := List.inj_on_of_nodup_map once isGold' isGold id
    rwa [← spanned, eq] at low
  · intro low
    rw [← claims_strictTwins_at once fresh g.span] at low
    obtain ⟨m, mem, twin, same⟩ := mem_claims_iff.mp low
    exact mem_claims_iff.mpr ⟨m, List.mem_of_mem_filter mem, twin, same⟩

end Ids

/-! ## The mentions of a sentence -/

namespace Document

/-- What strict matching makes of the predicted mentions of sentence `i`, before (`row`) and after
(`out`) it, and of the gold mentions there that have a span; `ids` are these, from the lowest up. -/
structure StrictlyTwinned (taken marked : Document) (i : Nat) (row out : List Mention)
    (span : Nat × Nat) (ids : List MentionId) : Prop where
  ascending : ids.Pairwise (· < ·)
  gold : ∀ id, id ∈ ids ↔
    ∃ g, taken.goldMentions.find? id = some g ∧ g.sentence = i ∧ g.span = span
  /-- The mention after `k` others with the span claims the id at `k`, and nothing if there is
  none. -/
  inTurn : ∀ (j : Nat) (m : Mention), row[j]? = some m → m.span = span →
    out[j]? = some (m.claiming? ids[((row.map Mention.span).take j).count span]?)
  paired : (out.filter fun m => m.span == span).countP Mention.hasTwin =
    min ((row.map Mention.span).count span) ids.length
  marked : ∀ k id, ids[k]? = some id →
    ∃ g, marked.goldMentions.find? id = some g ∧
      (g.hasTwin = true ↔ k < (row.map Mention.span).count span)

theorem SeekingTwins.strictlyTwinned {doc taken : Document} {lex : Lexicon} {raw : RawMentions}
    {next : MentionId} {gold built row : List Mention} {i : Nat}
    (h : SeekingTwins doc taken lex raw next gold built)
    (row_i : (rowsOf taken.sentences.length built)[i]? = some row)
    (fresh : ∀ m ∈ row, m.hasTwin = false) (span : Nat × Nat) :
    StrictlyTwinned taken (taken.findTwins .strict (rowsOf taken.sentences.length built)).1 i row
      (strictTwins (taken.goldOf i) row) span (idsAt (taken.goldOf i) span) := by
  have once := h.nodup_goldOf i
  refine ⟨idsAt_ascending once, fun id => ?_, ?_, ?_, ?_⟩
  · rw [mem_idsAt_iff]
    constructor
    · rintro ⟨g, isGold, spanned, rfl⟩
      obtain ⟨found, sentence⟩ := h.mem_goldOf_iff.mp isGold
      exact ⟨g, found, sentence, spanned⟩
    · rintro ⟨g, found, sentence, spanned⟩
      obtain ⟨rfl, -⟩ := h.of_find? found
      exact ⟨g, h.mem_goldOf_iff.mpr ⟨found, sentence⟩, spanned, rfl⟩
  · rintro j m at_j rfl
    exact getElem?_strictTwins once at_j
  · have claimed := congrArg List.length (claims_strictTwins_at once fresh span)
    rw [claims, List.length_map, ← List.countP_eq_length_filter, List.length_take] at claimed
    exact claimed
  · intro k id at_k
    obtain ⟨g, isGold, rfl, rfl⟩ := mem_idsAt_iff.mp (List.mem_of_getElem? at_k)
    have out_i : (taken.findTwins .strict (rowsOf taken.sentences.length built)).2[i]? =
        some (strictTwins (taken.goldOf i) row) := by
      rw [getElem?_findTwins, row_i]
      rfl
    obtain ⟨g', found, twin⟩ := h.marked .strict isGold out_i
    rw [mem_claims_strictTwins_iff once fresh isGold,
      mem_take_iff_of_getElem? (idsAt_ascending once).nodup at_k] at twin
    exact ⟨g', found, twin⟩

/-- Of the `p` predicted and `g` gold mentions of a sentence with one span the first `min p g`, in
the order of the list, are paired with the lowest ids, whatever other spans stand between them. -/
theorem findTwins_strict_exact {doc : Document} (fresh : doc.Fresh) (lex : Lexicon)
    {raw : RawMentions} (inside : ∀ entry ∈ doc.numberedSpans raw, entry.HeadInside) :
    ∃ taken next built, doc.takeGold lex raw.gold? = (taken, next, none) ∧
      buildMentions lex next (spansOf taken.sentences raw.predicted) = (built, none) ∧
      ∀ i s, doc.sentences[i]? = some s → ∃ row out,
        (rowsOf taken.sentences.length built)[i]? = some row ∧
        (taken.findTwins .strict (rowsOf taken.sentences.length built)).2[i]? = some out ∧
        row.map Mention.span = s.spansInside (raw.predicted[i]?.getD []) ∧
        (∀ m ∈ row, m.hasTwin = false) ∧ out.length = row.length ∧
        ∀ span, ∃ ids, ids.length =
            (s.spansInside ((raw.gold?.getD [])[i]?.getD [])).count span ∧
          StrictlyTwinned taken
            (taken.findTwins .strict (rowsOf taken.sentences.length built)).1 i row out span ids := by
  obtain ⟨taken, next, gold, built, seeking⟩ := exists_seekingTwins fresh lex inside
  refine ⟨taken, next, built, seeking.taking, seeking.building, fun i s at_i => ?_⟩
  have row_i := seeking.getElem?_rowsOf at_i
  have new := seeking.fresh_row i
  refine ⟨_, strictTwins (taken.goldOf i) (built.filter fun m => m.sentence == i), row_i, ?_,
    seeking.map_span_row at_i, new, ?_,
    fun span => ⟨idsAt (taken.goldOf i) span, ?_, seeking.strictlyTwinned row_i new span⟩⟩
  · rw [SeekingTwins.getElem?_findTwins, row_i]
    rfl
  · have same := map_strictTwins (f := fun _ => ()) (fun _ _ => rfl) (taken.goldOf i)
      (built.filter fun m => m.sentence == i)
    simpa using congrArg List.length same
  · rw [length_idsAt, seeking.map_span_goldOf at_i]

/-- Two spans mixed with each other: three predicted mentions of one with two gold mentions, and one
each of the other. -/
theorem findTwins_strict_exact_mixed :
    let lex : Lexicon := ⟨{}, {}, {}, {}, {}⟩
    let doc := ofSentences "d" [
      { tokens := [.ofWord "Joe" "NNP", .ofWord "and" "CC", .ofWord "Ann" "NNP"] }]
    let joe : MentionSpan := { start := 0, stop := 1 }
    let ann : MentionSpan := { start := 2, stop := 3 }
    let both : MentionSpan := { start := 0, stop := 3 }
    let raw : RawMentions :=
      { predicted := [[ann, joe, both, joe, joe]], gold? := some [[joe, ann, joe]] }
    doc.Fresh ∧ (∀ entry ∈ doc.numberedSpans raw, entry.HeadInside) ∧
      ∃ taken next built row out ids, doc.takeGold lex raw.gold? = (taken, next, none) ∧
        buildMentions lex next (spansOf taken.sentences raw.predicted) = (built, none) ∧
        (taken.findTwins .strict (rowsOf taken.sentences.length built)).2[0]? = some out ∧
        StrictlyTwinned taken
          (taken.findTwins .strict (rowsOf taken.sentences.length built)).1 0 row out (0, 1) ids ∧
        ids.length = 2 ∧ out.map Mention.id = [1, 0, 5, 2, 7] := by
  intro lex doc joe ann both raw
  have fresh : doc.Fresh := fresh_ofSentences _ _
  have bare : ∀ entry ∈ doc.numberedSpans raw, entry.2.2.head? = none := by decide +kernel
  have inside : ∀ entry ∈ doc.numberedSpans raw, entry.HeadInside := by
    intro entry mem head given
    cases (bare entry mem).symm.trans given
  have claimed : ((((doc.takeGold lex raw.gold?).1.findTwins .strict
      (rowsOf (doc.takeGold lex raw.gold?).1.sentences.length
        (buildMentions lex (doc.takeGold lex raw.gold?).2.1
          (spansOf (doc.takeGold lex raw.gold?).1.sentences raw.predicted)).1)).2)[0]?.map
            (List.map Mention.id)) = some [1, 0, 5, 2, 7] := by decide +kernel
  obtain ⟨taken, next, built, taking, building, all⟩ := findTwins_strict_exact fresh lex inside
  obtain ⟨row, out, -, out_i, -, -, -, spans⟩ := all 0 _ rfl
  obtain ⟨ids, two, twinned⟩ := spans (0, 1)
  rw [taking] at claimed
  dsimp only at claimed
  rw [building] at claimed
  dsimp only at claimed
  rw [out_i] at claimed
  exact ⟨fresh, inside, taken, next, built, row, out, ids, taking, building, out_i, twinned, two,
    Option.some.inj claimed⟩

end Document

end Discourse
