import Discourse.Proofs.Mention.StrictTwins
/-!
# Relaxed twins

Under the relaxed policy a span is claimed once, by the first predicted mention that has it, and it
gives away its lowest gold id (`spanClaim?`).  The predicted mentions left over stand in line at
their heads, and a head gives away the ids that no span has claimed, from the lowest up
(`headQueue`).  So what a mention claims follows from its span if it is the first with it, and
otherwise from its turn in the line of its head (`getElem?_relaxedTwins`).
-/

namespace Discourse

/-- What a mention behind mentions with some spans claims by its own: the lowest gold id of the
span, unless one of the mentions before it has the span as well. -/
def spanClaim? (gold : List Mention) (before : List (Nat × Nat)) (m : Mention) :
    Option MentionId :=
  if m.span ∈ before then none else (idsAt gold m.span).head?

/-- The gold mentions that predicted mentions with some spans do not claim by span: those of other
spans, and those that have not the lowest id of their span. -/
def unclaimedBySpan (gold : List Mention) (spans : List (Nat × Nat)) : List Mention :=
  gold.filter fun g => ¬ (g.span ∈ spans ∧ (idsAt gold g.span).head? = some g.id)

/-- The ids of the gold mentions with a head, in the order of the list. -/
def idsUnder (pool : List Mention) (head : Nat) : List MentionId :=
  (pool.filter fun g => g.head == head).map Mention.id

/-- The ids with a head that no span of the row claims. -/
def headQueue (gold row : List Mention) (head : Nat) : List MentionId :=
  idsUnder (unclaimedBySpan gold (row.map Mention.span)) head

/-- The mentions of a row, behind mentions with some spans, that claim nothing by span. -/
def leftOver (gold : List Mention) (before : List (Nat × Nat)) : List Mention → List Mention
  | [] => []
  | m :: rest =>
    if (spanClaim? gold before m).isNone then m :: leftOver gold (before ++ [m.span]) rest
    else leftOver gold (before ++ [m.span]) rest

/-- How many mentions before place `j` of a row stand in the line of a head. -/
def turnAt (gold row : List Mention) (j head : Nat) : Nat :=
  (leftOver gold [] (row.take j)).countP fun m => m.head == head

/-- What the mention at place `j` of a row claims: by its span if it may, else the id whose turn it
is at its head. -/
def relaxedClaim? (gold row : List Mention) (j : Nat) (m : Mention) : Option MentionId :=
  (spanClaim? gold ((row.map Mention.span).take j) m).or
    (headQueue gold row m.head)[turnAt gold row j m.head]?

/-! ## Claims by span -/

theorem spanClaim?_eq_some_iff {gold : List Mention} {before : List (Nat × Nat)} {m : Mention}
    {id : MentionId} : spanClaim? gold before m = some id ↔
      m.span ∉ before ∧ (idsAt gold m.span).head? = some id := by
  rw [spanClaim?, Option.ite_none_left_eq_some]

/-- A filter that keeps all that is looked for does not matter. -/
theorem find?_filter_of_imp {α : Type} {p q : α → Bool} (keeps : ∀ a, q a = true → p a = true)
    (as : List α) : (as.filter p).find? q = as.find? q := by
  rw [List.find?_filter]
  refine congrArg (fun p => as.find? p) (funext fun a => ?_)
  cases wanted : q a with
  | false => simp
  | true => simp [keeps a wanted]

theorem find?_firstOfSpan (gold : List Mention) (span : Nat × Nat) :
    ((firstOfSpan gold).find? fun g => g.span == span) = gold.find? fun g => g.span == span := by
  induction gold with
  | nil => rfl
  | cons g rest ih =>
    rw [firstOfSpan, List.find?_cons, List.find?_cons]
    cases same : g.span == span with
    | true => rfl
    | false =>
      refine (find?_filter_of_imp (fun other here => ?_) _).trans ih
      refine bne_iff_ne.mpr fun eq => ?_
      rw [← eq, here] at same
      cases same

section BySpan

variable {gold : List Mention}

/-- The first gold mentions of the spans that no mention has had so far. -/
def spansLeft (gold : List Mention) (before : List (Nat × Nat)) : List Mention :=
  (firstOfSpan gold).filter fun g => !before.contains g.span

theorem find?_spansLeft (gold : List Mention) (before : List (Nat × Nat)) (span : Nat × Nat) :
    ((spansLeft gold before).find? fun g => g.span == span) =
      if span ∈ before then none else gold.find? fun g => g.span == span := by
  split
  next mem =>
    refine List.find?_eq_none.mpr fun g listed here => ?_
    have absent := (List.mem_filter.mp listed).2
    rw [beq_iff_eq.mp here, List.contains_iff_mem.mpr mem] at absent
    cases absent
  next absent =>
    refine (find?_filter_of_imp (fun g here => ?_) _).trans (find?_firstOfSpan gold span)
    rw [beq_iff_eq.mp here, List.contains_eq_mem, decide_eq_false absent]
    rfl

theorem mem_unclaimedBySpan_iff {spans : List (Nat × Nat)} {g : Mention} :
    g ∈ unclaimedBySpan gold spans ↔
      g ∈ gold ∧ ¬ (g.span ∈ spans ∧ (idsAt gold g.span).head? = some g.id) := by
  rw [unclaimedBySpan, List.mem_filter, decide_eq_true_iff]

/-- A claim by span takes out the gold mention whose id it takes. -/
theorem unclaimedBySpan_of_claim (before : List (Nat × Nat)) {span : Nat × Nat} {id : MentionId}
    (lowest : (idsAt gold span).head? = some id) (unique : ∀ g ∈ gold, g.id = id → g.span = span) :
    ((unclaimedBySpan gold before).filter fun g => g.id != id) =
      unclaimedBySpan gold (before ++ [span]) := by
  rw [unclaimedBySpan, List.filter_filter]
  refine List.filter_congr fun g isGold => ?_
  rw [Bool.eq_iff_iff, Bool.and_eq_true, bne_iff_ne, decide_eq_true_iff, decide_eq_true_iff,
    List.mem_append, List.mem_singleton]
  by_cases here : g.span = span
  · have own : (idsAt gold g.span).head? = some g.id ↔ g.id = id := by
      rw [here, lowest, Option.some_inj, eq_comm]
    rw [own]
    tauto
  · have apart : g.id ≠ id := fun eq => here (unique g isGold eq)
    tauto

/-- A mention that claims nothing by span leaves the gold mentions as they are. -/
theorem unclaimedBySpan_of_noClaim (before : List (Nat × Nat)) {m : Mention}
    (nothing : spanClaim? gold before m = none) :
    unclaimedBySpan gold before = unclaimedBySpan gold (before ++ [m.span]) := by
  refine List.filter_congr fun g _ => ?_
  rw [decide_eq_decide, List.mem_append, List.mem_singleton]
  rw [spanClaim?] at nothing
  split at nothing
  next seen =>
    have same : g.span ∈ before ∨ g.span = m.span ↔ g.span ∈ before :=
      or_iff_left_of_imp fun eq => eq ▸ seen
    rw [same]
  next =>
    have unlike : (idsAt gold g.span).head? = some g.id → g.span ≠ m.span := by
      intro lowest eq
      rw [eq, nothing] at lowest
      cases lowest
    tauto

theorem spansLeft_of_claim (before : List (Nat × Nat)) (span : Nat × Nat) :
    ((spansLeft gold before).filter fun g => g.span != span) =
      spansLeft gold (before ++ [span]) := by
  rw [spansLeft, List.filter_filter]
  refine List.filter_congr fun g _ => ?_
  rw [Bool.eq_iff_iff]
  simp [and_comm]

section Ascending

variable (ascending : (gold.map Mention.id).Pairwise (· < ·))
include ascending

/-- Among ids that ascend the list is in order already. -/
theorem idsAt_of_ascending (span : Nat × Nat) :
    idsAt gold span = (gold.filter fun g => g.span == span).map Mention.id := by
  have sub : ((gold.filter fun g => g.span == span).map Mention.id).Sublist
      (gold.map Mention.id) := List.filter_sublist.map Mention.id
  refine List.mergeSort_of_pairwise ((ascending.sublist sub).imp fun lt => ?_)
  exact decide_eq_true (Nat.le_of_lt lt)

theorem head?_idsAt_of_ascending (span : Nat × Nat) :
    (idsAt gold span).head? = (gold.find? fun g => g.span == span).map Mention.id := by
  rw [idsAt_of_ascending ascending, List.head?_map, List.head?_filter]

theorem spanClaim?_eq (before : List (Nat × Nat)) (m : Mention) :
    spanClaim? gold before m =
      ((spansLeft gold before).find? fun g => g.span == m.span).map Mention.id := by
  rw [spanClaim?, find?_spansLeft, head?_idsAt_of_ascending ascending]
  split <;> rfl

/-- The step at one mention: the mentions behind it find the span claimed. -/
theorem spanTwins_cons (before : List (Nat × Nat)) (m : Mention) (rest : List Mention) :
    spanTwins (spansLeft gold before) (unclaimedBySpan gold before) (m :: rest) =
      (m.claiming? (spanClaim? gold before m) ::
          (spanTwins (spansLeft gold (before ++ [m.span]))
            (unclaimedBySpan gold (before ++ [m.span])) rest).1,
        (spanTwins (spansLeft gold (before ++ [m.span]))
            (unclaimedBySpan gold (before ++ [m.span])) rest).2) := by
  have claim := spanClaim?_eq ascending before m
  rw [spanTwins]
  split
  next g found =>
    rw [found, Option.map_some] at claim
    have lowest := (spanClaim?_eq_some_iff.mp claim).2
    have spanned : g.span = m.span := by simpa using List.find?_some found
    have isGold : g ∈ gold := by
      have listed := List.mem_of_find?_eq_some found
      exact firstOfSpan_subset gold (List.mem_of_mem_filter listed)
    have once : (gold.map Mention.id).Nodup := ascending.imp Nat.ne_of_lt
    have unique : ∀ other ∈ gold, other.id = g.id → other.span = m.span := by
      intro other mem same
      have eq : other = g := List.inj_on_of_nodup_map once mem isGold same
      exact eq ▸ spanned
    rw [claim, unclaimedBySpan_of_claim before lowest unique, spansLeft_of_claim]
    rfl
  next nothing =>
    rw [nothing, Option.map_none] at claim
    have kept : spansLeft gold (before ++ [m.span]) = spansLeft gold before := by
      rw [← spansLeft_of_claim, List.filter_eq_self]
      intro g mem
      exact bne_iff_ne.mpr fun eq => List.find?_eq_none.mp nothing g mem (beq_iff_eq.mpr eq)
    rw [claim, kept, ← unclaimedBySpan_of_noClaim before claim]
    rfl

theorem snd_spanTwins (before : List (Nat × Nat)) (row : List Mention) :
    (spanTwins (spansLeft gold before) (unclaimedBySpan gold before) row).2 =
      unclaimedBySpan gold (before ++ row.map Mention.span) := by
  induction row generalizing before with
  | nil => rw [spanTwins, List.map_nil, List.append_nil]
  | cons m rest ih =>
    rw [spanTwins_cons ascending, ih, List.append_assoc, List.map_cons, List.singleton_append]

theorem getElem?_spanTwins (before : List (Nat × Nat)) {row : List Mention} {j : Nat} {m : Mention}
    (at_j : row[j]? = some m) :
    (spanTwins (spansLeft gold before) (unclaimedBySpan gold before) row).1[j]? =
      some (m.claiming? (spanClaim? gold (before ++ (row.map Mention.span).take j) m)) := by
  induction row generalizing before j with
  | nil => cases at_j
  | cons first rest ih =>
    rw [spanTwins_cons ascending]
    cases j with
    | zero =>
      cases at_j
      rw [List.getElem?_cons_zero, List.take_zero, List.append_nil]
    | succ j =>
      rw [List.getElem?_cons_succ, ih _ at_j, List.append_assoc, List.map_cons,
        List.take_succ_cons, List.singleton_append]

/-- The mentions left over are those that the spans have given nothing. -/
theorem filter_take_spanTwins (before : List (Nat × Nat)) {row : List Mention}
    (fresh : ∀ m ∈ row, m.hasTwin = false) (j : Nat) :
    ((spanTwins (spansLeft gold before) (unclaimedBySpan gold before) row).1.take j).filter
      (fun m => !m.hasTwin) = leftOver gold before (row.take j) := by
  induction row generalizing before j with
  | nil => rw [spanTwins, List.take_nil, leftOver, List.filter_nil]
  | cons first rest ih =>
    obtain ⟨new, fresh⟩ := List.forall_mem_cons.mp fresh
    rw [spanTwins_cons ascending]
    cases j with
    | zero => rw [List.take_zero, List.take_zero, leftOver, List.filter_nil]
    | succ j =>
      rw [List.take_succ_cons, List.take_succ_cons, leftOver, ← ih _ fresh j]
      cases spanClaim? gold before first with
      | some id => rfl
      | none =>
        refine List.filter_cons_of_pos ?_
        rw [Mention.claiming?, new, Bool.not_false]

end Ascending

end BySpan

/-! ## Claims by head -/

section ByHead

variable {pool row : List Mention} {g : Mention}

theorem mem_idsUnder_iff {head : Nat} {id : MentionId} :
    id ∈ idsUnder pool head ↔ ∃ g ∈ pool, g.head = head ∧ g.id = id := by
  simp [idsUnder, and_assoc]

theorem head?_idsUnder (pool : List Mention) (head : Nat) :
    (idsUnder pool head).head? = (pool.find? fun g => g.head == head).map Mention.id := by
  rw [idsUnder, List.head?_map, List.head?_filter]

/-- A claim takes the first id of its head. -/
theorem idsUnder_eraseP_self (pool : List Mention) (head : Nat) :
    idsUnder (pool.eraseP fun g => g.head == head) head = (idsUnder pool head).tail := by
  induction pool with
  | nil => rfl
  | cons g rest ih =>
    cases here : g.head == head with
    | true => simp [idsUnder, here]
    | false => simpa [idsUnder, List.eraseP_cons, here] using ih

/-- A claim leaves the ids of all other heads. -/
theorem idsUnder_eraseP_of_ne (pool : List Mention) {head other : Nat} (ne : other ≠ head) :
    idsUnder (pool.eraseP fun g => g.head == head) other = idsUnder pool other := by
  induction pool with
  | nil => rfl
  | cons g rest ih =>
    cases here : g.head == head with
    | true =>
      have apart : g.head ≠ other := fun eq => ne (eq.symm.trans (beq_iff_eq.mp here))
      simp [idsUnder, here, apart]
    | false =>
      rw [List.eraseP_cons, here, cond_false]
      simp only [idsUnder, List.filter_cons] at ih ⊢
      split
      next => rw [List.map_cons, List.map_cons, ih]
      next => exact ih

/-- The mentions that claim by head. -/
def waiting (row : List Mention) (head : Nat) : Nat :=
  (row.filter fun m => !m.hasTwin).countP fun m => m.head == head

theorem headTwins_cons (pool : List Mention) (m : Mention) (rest : List Mention) :
    headTwins pool (m :: rest) =
      if m.hasTwin then m :: headTwins pool rest
      else m.claiming? (idsUnder pool m.head).head? ::
        headTwins (pool.eraseP fun g => g.head == m.head) rest := by
  rw [headTwins, head?_idsUnder]
  split
  next => rfl
  next =>
    split
    next g found => rw [found]; rfl
    next nothing =>
      have kept : (pool.eraseP fun g => g.head == m.head) = pool :=
        List.eraseP_of_forall_not (List.find?_eq_none.mp nothing)
      rw [nothing, kept]
      rfl

/-- A mention without a twin claims the id whose turn it is at its head. -/
theorem getElem?_headTwins {j : Nat} {m : Mention} (at_j : row[j]? = some m) :
    (headTwins pool row)[j]? = some (if m.hasTwin then m
      else m.claiming? (idsUnder pool m.head)[waiting (row.take j) m.head]?) := by
  induction row generalizing pool j with
  | nil => cases at_j
  | cons first rest ih =>
    rw [headTwins_cons]
    cases j with
    | zero =>
      cases at_j
      rw [List.head?_eq_getElem?]
      split <;> rfl
    | succ j =>
      rw [List.take_succ_cons]
      cases twin : first.hasTwin with
      | true =>
        have same : waiting (first :: rest.take j) m.head = waiting (rest.take j) m.head := by
          simp [waiting, twin]
        rw [if_pos rfl, List.getElem?_cons_succ, ih at_j, same]
      | false =>
        rw [if_neg Bool.false_ne_true, List.getElem?_cons_succ, ih at_j]
        by_cases same : m.head = first.head
        · have count : waiting (first :: rest.take j) m.head =
              waiting (rest.take j) m.head + 1 := by simp [waiting, twin, same]
          rw [count, same, idsUnder_eraseP_self, List.getElem?_tail]
        · have count : waiting (first :: rest.take j) m.head = waiting (rest.take j) m.head := by
            simp [waiting, twin, Ne.symm same]
          rw [count, idsUnder_eraseP_of_ne pool same]

theorem find?_eq_some_or_mem_eraseP {α : Type} {p : α → Bool} {as : List α} {a : α}
    (mem : a ∈ as) : as.find? p = some a ∨ a ∈ as.eraseP p := by
  induction as with
  | nil => cases mem
  | cons first rest ih =>
    rw [List.find?_cons, List.eraseP_cons]
    cases here : p first with
    | true =>
      rcases List.mem_cons.mp mem with rfl | mem
      · exact .inl rfl
      · exact .inr mem
    | false =>
      rcases List.mem_cons.mp mem with rfl | mem
      · exact .inr List.mem_cons_self
      · exact (ih mem).imp id (List.mem_cons_of_mem first)

/-- Where a mention goes without a twin, all gold mentions with its head have been claimed. -/
theorem headTwins_exhausts {m : Mention} (mem : m ∈ headTwins pool row)
    (alone : m.hasTwin = false) (left : g ∈ pool) (head : g.head = m.head) :
    g.id ∈ claims (headTwins pool row) := by
  induction row generalizing pool with
  | nil => cases mem
  | cons first rest ih =>
    rw [headTwins_cons] at mem ⊢
    cases twin : first.hasTwin with
    | true =>
      rw [twin, if_pos rfl] at mem
      rcases List.mem_cons.mp mem with rfl | mem
      · cases alone.symm.trans twin
      · rw [if_pos rfl, claims, List.filter_cons_of_pos twin]
        exact List.mem_cons_of_mem _ (ih mem left)
    | false =>
      rw [twin, if_neg Bool.false_ne_true] at mem
      rw [if_neg Bool.false_ne_true, claims_cons_claiming? twin, List.mem_append]
      rcases List.mem_cons.mp mem with rfl | mem
      · cases front : (idsUnder pool first.head).head? with
        | some id =>
          rw [front] at alone
          cases alone
        | none =>
          -- then nobody with its head was left, against `left`
          rw [front] at head
          have given : g.id ∈ idsUnder pool first.head := mem_idsUnder_iff.mpr ⟨g, left, head, rfl⟩
          rw [List.head?_eq_none_iff.mp front] at given
          cases given
      · have here := find?_eq_some_or_mem_eraseP left (p := fun g => g.head == first.head)
        rcases here with found | left
        · rw [head?_idsUnder, found]
          exact .inl List.mem_cons_self
        · exact .inr (ih mem left)

end ByHead

/-! ## A row of mentions -/

section Run

variable {gold row : List Mention}

theorem spansLeft_nil (gold : List Mention) : spansLeft gold [] = firstOfSpan gold :=
  List.filter_eq_self.mpr fun _ _ => rfl

theorem unclaimedBySpan_nil (gold : List Mention) : unclaimedBySpan gold [] = gold :=
  List.filter_eq_self.mpr fun _ _ => by simp

theorem relaxedTwins_eq (ascending : (gold.map Mention.id).Pairwise (· < ·)) :
    relaxedTwins gold row = headTwins (unclaimedBySpan gold (row.map Mention.span))
      (spanTwins (spansLeft gold []) (unclaimedBySpan gold []) row).1 := by
  have left := snd_spanTwins ascending [] row
  rw [List.nil_append] at left
  rw [← left, spansLeft_nil, unclaimedBySpan_nil]
  rfl

/-- Each mention claims by its span if it may, and else in its turn at its head. -/
theorem getElem?_relaxedTwins (ascending : (gold.map Mention.id).Pairwise (· < ·))
    (fresh : ∀ m ∈ row, m.hasTwin = false) {j : Nat} {m : Mention} (at_j : row[j]? = some m) :
    (relaxedTwins gold row)[j]? = some (m.claiming? (relaxedClaim? gold row j m)) := by
  have bySpan := getElem?_spanTwins ascending [] at_j
  rw [List.nil_append] at bySpan
  rw [relaxedTwins_eq ascending, getElem?_headTwins bySpan, relaxedClaim?]
  cases spanClaim? gold ((row.map Mention.span).take j) m with
  | some id => rfl
  | none =>
    have turn : waiting ((spanTwins (spansLeft gold []) (unclaimedBySpan gold []) row).1.take j)
        m.head = turnAt gold row j m.head := by
      rw [waiting, filter_take_spanTwins ascending [] fresh, turnAt]
    have new : m.hasTwin = false := fresh m (List.mem_of_getElem? at_j)
    rw [Mention.claiming?, new, if_neg Bool.false_ne_true, turn]
    rfl

theorem exists_of_spanClaim? {before : List (Nat × Nat)} {m : Mention} {id : MentionId}
    (claim : spanClaim? gold before m = some id) : ∃ g ∈ gold, g.span = m.span ∧ g.id = id :=
  mem_idsAt_iff.mp (List.mem_of_mem_head? (spanClaim?_eq_some_iff.mp claim).2)

theorem exists_of_headQueue {head k : Nat} {id : MentionId}
    (at_k : (headQueue gold row head)[k]? = some id) : ∃ g ∈ gold, g.head = head ∧ g.id = id := by
  obtain ⟨g, listed, rest⟩ := mem_idsUnder_iff.mp (List.mem_of_getElem? at_k)
  exact ⟨g, (mem_unclaimedBySpan_iff.mp listed).1, rest⟩

/-- A mention agrees with what it claims in the span or in the head. -/
theorem exists_of_relaxedClaim? {j : Nat} {m : Mention} {id : MentionId}
    (claim : relaxedClaim? gold row j m = some id) :
    ∃ g ∈ gold, (g.span = m.span ∨ g.head = m.head) ∧ g.id = id := by
  rcases Option.or_eq_some_iff.mp claim with bySpan | ⟨-, byHead⟩
  · obtain ⟨g, isGold, spanned, id⟩ := exists_of_spanClaim? bySpan
    exact ⟨g, isGold, .inl spanned, id⟩
  · obtain ⟨g, isGold, head, id⟩ := exists_of_headQueue byHead
    exact ⟨g, isGold, .inr head, id⟩

/-- A gold mention that is not in the line of its head goes to the first mention with its span. -/
theorem exists_spanClaim? {g : Mention} (seen : g.span ∈ row.map Mention.span)
    (lowest : (idsAt gold g.span).head? = some g.id) :
    ∃ j m, row[j]? = some m ∧
      spanClaim? gold ((row.map Mention.span).take j) m = some g.id := by
  have first : (row.map Mention.span)[(row.map Mention.span).idxOf g.span]? = some g.span :=
    List.getElem?_idxOf seen
  rw [List.getElem?_map] at first
  obtain ⟨m, at_j, spanned⟩ := Option.map_eq_some_iff.mp first
  have new : m.span ∉ (row.map Mention.span).take ((row.map Mention.span).idxOf g.span) := by
    rw [spanned, List.mem_take_iff_idxOf_lt seen]
    exact Nat.lt_irrefl _
  exact ⟨_, m, at_j, spanClaim?_eq_some_iff.mpr ⟨new, spanned ▸ lowest⟩⟩

/-- The line of a head has the ids with the head that no span claims. -/
theorem mem_headQueue_iff {head : Nat} {id : MentionId} (once : (gold.map Mention.id).Nodup) :
    id ∈ headQueue gold row head ↔ ∃ g ∈ gold, g.head = head ∧ g.id = id ∧
      ∀ j m, row[j]? = some m →
        spanClaim? gold ((row.map Mention.span).take j) m ≠ some id := by
  rw [headQueue, mem_idsUnder_iff]
  constructor
  · rintro ⟨g, listed, head, rfl⟩
    obtain ⟨isGold, unclaimed⟩ := mem_unclaimedBySpan_iff.mp listed
    refine ⟨g, isGold, head, rfl, fun j m at_j claim => unclaimed ?_⟩
    obtain ⟨g', isGold', spanned, same⟩ := exists_of_spanClaim? claim
    have eq : g' = g := List.inj_on_of_nodup_map once isGold' isGold same
    subst eq
    have listed : m.span ∈ row.map Mention.span := List.mem_map_of_mem (List.mem_of_getElem? at_j)
    exact ⟨spanned ▸ listed, spanned ▸ (spanClaim?_eq_some_iff.mp claim).2⟩
  · rintro ⟨g, isGold, head, rfl, unclaimed⟩
    refine ⟨g, mem_unclaimedBySpan_iff.mpr ⟨isGold, fun ⟨seen, lowest⟩ => ?_⟩, head, rfl⟩
    obtain ⟨j, m, at_j, claim⟩ := exists_spanClaim? seen lowest
    exact unclaimed j m at_j claim

/-- What relaxed matching makes of the predicted mentions of a sentence, before (`row`) and after
(`out`) it. -/
structure RelaxedlyTwinned (gold row out : List Mention) : Prop where
  length : out.length = row.length
  /-- No gold mention is claimed twice. -/
  once : (claims out).Nodup
  /-- A mention is left as it is, or claims a gold mention with its span or its head. -/
  agree : ∀ (j : Nat) (m : Mention), row[j]? = some m → ∃ id?, out[j]? = some (m.claiming? id?) ∧
    ∀ id, id? = some id → ∃ g ∈ gold, (g.span = m.span ∨ g.head = m.head) ∧ g.id = id
  /-- Where a mention goes without a twin, all gold mentions with its head have been claimed. -/
  exhausted : ∀ m ∈ out, m.hasTwin = false → ∀ g ∈ gold, g.head = m.head → g.id ∈ claims out
  /-- The first mention with a span claims the lowest id of the span. -/
  bySpan : ∀ (j : Nat) (m : Mention), row[j]? = some m → ∀ id,
    spanClaim? gold ((row.map Mention.span).take j) m = some id → out[j]? = some (m.claiming id)
  /-- Any other mention claims the id whose turn it is at its head, or none if there is none. -/
  byHead : ∀ (j : Nat) (m : Mention), row[j]? = some m →
    spanClaim? gold ((row.map Mention.span).take j) m = none →
      out[j]? = some (m.claiming? (headQueue gold row m.head)[turnAt gold row j m.head]?)
  /-- The ids stand in the line of their head from the lowest up. -/
  ascending : ∀ head, (headQueue gold row head).Pairwise (· < ·)
  /-- The line of a head has all the ids with the head that no span claims. -/
  queued : ∀ head id, id ∈ headQueue gold row head ↔ ∃ g ∈ gold, g.head = head ∧ g.id = id ∧
    ∀ (j : Nat) (m : Mention), row[j]? = some m →
      spanClaim? gold ((row.map Mention.span).take j) m ≠ some id

theorem relaxedlyTwinned (ascending : (gold.map Mention.id).Pairwise (· < ·))
    (fresh : ∀ m ∈ row, m.hasTwin = false) :
    RelaxedlyTwinned gold row (relaxedTwins gold row) := by
  have once : (gold.map Mention.id).Nodup := ascending.imp Nat.ne_of_lt
  have matching := relaxedTwins_matching once fresh
  have claimed := fun j m (at_j : row[j]? = some m) => getElem?_relaxedTwins ascending fresh at_j
  refine { length := ?length, once := ?once, agree := ?agree, exhausted := ?exhausted,
           bySpan := ?bySpan, byHead := ?byHead, ascending := ?ascending, queued := ?queued }
  case length => simpa using congrArg List.length matching.sites
  case once => exact matching.nodup_claims fresh once
  case agree =>
    intro j m at_j
    exact ⟨_, claimed j m at_j, fun id claim => exists_of_relaxedClaim? claim⟩
  case exhausted =>
    intro m mem alone g isGold head
    by_cases listed : g ∈ unclaimedBySpan gold (row.map Mention.span)
    · rw [relaxedTwins_eq ascending] at mem ⊢
      exact headTwins_exhausts mem alone listed head
    · -- then a span has claimed it
      rw [mem_unclaimedBySpan_iff, not_and, not_not] at listed
      obtain ⟨seen, lowest⟩ := listed isGold
      obtain ⟨j, m', at_j, claim⟩ := exists_spanClaim? seen lowest
      have out_j := claimed j m' at_j
      rw [relaxedClaim?, claim, Option.some_or] at out_j
      exact mem_claims_iff.mpr ⟨_, List.mem_of_getElem? out_j, rfl, rfl⟩
  case bySpan =>
    intro j m at_j id claim
    rw [claimed j m at_j, relaxedClaim?, claim, Option.some_or]
    rfl
  case byHead =>
    intro j m at_j claim
    rw [claimed j m at_j, relaxedClaim?, claim, Option.none_or]
  case ascending =>
    intro head
    exact ascending.sublist ((List.filter_sublist.trans List.filter_sublist).map Mention.id)
  case queued =>
    intro head id
    exact mem_headQueue_iff once

end Run

namespace Document

/-- Relaxed matching claims no gold mention twice and only for the same span or the same head, it
leaves no mention alone for whose head a gold mention is left, and the ids of a head that no span
has claimed go to the mentions in line at the head from the lowest up. -/
theorem findTwins_relaxed_headMaximal {doc : Document} (fresh : doc.Fresh) (lex : Lexicon)
    {raw : RawMentions} (inside : ∀ entry ∈ doc.numberedSpans raw, entry.HeadInside) :
    ∃ taken next built, doc.takeGold lex raw.gold? = (taken, next, none) ∧
      buildMentions lex next (spansOf taken.sentences raw.predicted) = (built, none) ∧
      ∀ i s, doc.sentences[i]? = some s → ∃ row out,
        (rowsOf taken.sentences.length built)[i]? = some row ∧
        (taken.findTwins .relaxed (rowsOf taken.sentences.length built)).2[i]? = some out ∧
        row.map Mention.span = s.spansInside (raw.predicted[i]?.getD []) ∧
        (taken.goldOf i).map Mention.span =
          s.spansInside ((raw.gold?.getD [])[i]?.getD []) ∧
        (∀ m ∈ row, m.hasTwin = false) ∧ RelaxedlyTwinned (taken.goldOf i) row out ∧
        ∀ g ∈ taken.goldOf i, ∃ g',
          (taken.findTwins .relaxed (rowsOf taken.sentences.length built)).1.goldMentions.find?
            g.id = some g' ∧ (g'.hasTwin = true ↔ g.id ∈ claims out) := by
  obtain ⟨taken, next, gold, built, seeking⟩ := exists_seekingTwins fresh lex inside
  refine ⟨taken, next, built, seeking.taking, seeking.building, fun i s at_i => ?_⟩
  have row_i := seeking.getElem?_rowsOf at_i
  have out_i : (taken.findTwins .relaxed (rowsOf taken.sentences.length built)).2[i]? =
      some (relaxedTwins (taken.goldOf i) (built.filter fun m => m.sentence == i)) := by
    rw [SeekingTwins.getElem?_findTwins, row_i]
    rfl
  have new := seeking.fresh_row i
  refine ⟨_, _, row_i, out_i, seeking.map_span_row at_i, seeking.map_span_goldOf at_i, new,
    relaxedlyTwinned (seeking.ascending_goldOf i) new, fun g mem => ?_⟩
  exact seeking.marked .relaxed mem out_i

/-- Three mentions claim by span, wherever they stand; of those left over, two share the line of a
head and get its ids in order, and one has a head without a line. -/
theorem findTwins_relaxed_headMaximal_mixed :
    let lex : Lexicon := ⟨{}, {}, {}, {}, {}⟩
    let doc := ofSentences "d" [
      { tokens := [.ofWord "the" "DT", .ofWord "old" "JJ", .ofWord "man" "NN",
          .ofWord "slept" "VBD"] }]
    let whole : MentionSpan := { start := 0, stop := 3 }
    let old : MentionSpan := { start := 1, stop := 2 }
    let oldMan : MentionSpan := { start := 1, stop := 3 }
    let oldManSlept : MentionSpan := { start := 1, stop := 4 }
    let man : MentionSpan := { start := 2, stop := 3 }
    let slept : MentionSpan := { start := 3, stop := 4 }
    let raw : RawMentions :=
      { predicted := [[whole, whole, old, oldManSlept, slept, man]]
        gold? := some [[whole, man, oldMan, whole, slept]] }
    doc.Fresh ∧ (∀ entry ∈ doc.numberedSpans raw, entry.HeadInside) ∧
      ∃ taken next built row out, doc.takeGold lex raw.gold? = (taken, next, none) ∧
        buildMentions lex next (spansOf taken.sentences raw.predicted) = (built, none) ∧
        (taken.findTwins .relaxed (rowsOf taken.sentences.length built)).2[0]? = some out ∧
        RelaxedlyTwinned (taken.goldOf 0) row out ∧
        out.map Mention.id = [0, 2, 7, 3, 4, 1] := by
  intro lex doc whole old oldMan oldManSlept man slept raw
  have fresh : doc.Fresh := fresh_ofSentences _ _
  have bare : ∀ entry ∈ doc.numberedSpans raw, entry.2.2.head? = none := by decide +kernel
  have inside : ∀ entry ∈ doc.numberedSpans raw, entry.HeadInside := by
    intro entry mem head given
    cases (bare entry mem).symm.trans given
  have claimed : ((((doc.takeGold lex raw.gold?).1.findTwins .relaxed
      (rowsOf (doc.takeGold lex raw.gold?).1.sentences.length
        (buildMentions lex (doc.takeGold lex raw.gold?).2.1
          (spansOf (doc.takeGold lex raw.gold?).1.sentences raw.predicted)).1)).2)[0]?.map
            (List.map Mention.id)) = some [0, 2, 7, 3, 4, 1] := by decide +kernel
  obtain ⟨taken, next, built, taking, building, all⟩ :=
    findTwins_relaxed_headMaximal fresh lex inside
  obtain ⟨row, out, -, out_i, -, -, -, twinned, -⟩ := all 0 _ rfl
  rw [taking] at claimed
  dsimp only at claimed
  rw [building] at claimed
  dsimp only at claimed
  rw [out_i] at claimed
  exact ⟨fresh, inside, taken, next, built, row, out, taking, building, out_i, twinned,
    Option.some.inj claimed⟩

end Document

end Discourse
