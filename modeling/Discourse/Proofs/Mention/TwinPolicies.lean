import Discourse.Proofs.Mention.RelaxedTwins
/-!
# The two policies compared

Strict matching gives away all gold mentions of a span, relaxed matching only one by span: a mention
behind another one with its span stands in the line of its head, and the id whose turn it is there
may have a different span.  So the relaxed policy adds to the strict one exactly if every such
mention, as long as gold mentions of its span are left for it under the strict policy, meets one of
them in its turn (`extends_iff`).  Then it finds no fewer twins, and no mention claims another span
while a gold mention of its own is unclaimed.  A span that is not repeated on both sides does no
harm (`extends_of_once`), and where a span decides the head no twins are lost in any case
(`countP_strictTwins_le`).
-/

namespace Discourse

/-- Every mention that strict matching pairs is paired by relaxed matching too, with a gold mention
of its span. -/
def Extends (gold strict relaxed : List Mention) : Prop :=
  ∀ (j : Nat) (m : Mention), strict[j]? = some m → m.hasTwin = true →
    ∃ g ∈ gold, g.span = m.span ∧ relaxed[j]? = some (m.claiming g.id)

/-- No mention claims another span while a gold mention of its own is unclaimed. -/
def PrefersSpan (gold row out : List Mention) : Prop :=
  ∀ (j : Nat) (m g : Mention), row[j]? = some m → g ∈ gold → g.span ≠ m.span →
    out[j]? = some (m.claiming g.id) →
      ∀ own ∈ gold, own.span = m.span → own.id ∈ claims (out.take j)

/-- What relaxed matching of the mentions of a sentence owes to strict matching of them. -/
structure Compared (gold row strict relaxed : List Mention) : Prop where
  /-- Each mention behind another one with its span meets its span at its head, as long as the
  strict policy has a twin for it. -/
  extends_iff : Extends gold strict relaxed ↔
    ∀ (j : Nat) (m : Mention), row[j]? = some m → m.span ∈ (row.map Mention.span).take j →
      ((row.map Mention.span).take j).count m.span < (gold.map Mention.span).count m.span →
        ∃ g ∈ gold, g.span = m.span ∧
          (headQueue gold row m.head)[turnAt gold row j m.head]? = some g.id
  noFewer : Extends gold strict relaxed →
    strict.countP Mention.hasTwin ≤ relaxed.countP Mention.hasTwin
  prefersSpan : Extends gold strict relaxed → PrefersSpan gold row relaxed
  once : (∀ span, (gold.map Mention.span).count span ≤ 1 ∨ (row.map Mention.span).count span ≤ 1) →
    Extends gold strict relaxed
  decided : (∀ m ∈ row, ∀ g ∈ gold, g.span = m.span → g.head = m.head) →
    strict.countP Mention.hasTwin ≤ relaxed.countP Mention.hasTwin

/-! ## Rows side by side -/

theorem claiming?_eq_claiming_iff {m : Mention} (new : m.hasTwin = false) {id? : Option MentionId}
    {id : MentionId} : m.claiming? id? = m.claiming id ↔ id? = some id := by
  constructor
  · intro same
    cases id? with
    | none =>
      have twin : m.hasTwin = true := congrArg Mention.hasTwin same
      cases new.symm.trans twin
    | some other => exact congrArg some (congrArg Mention.id same)
  · rintro rfl
    rfl

theorem countP_le_of_getElem? {α : Type} {p q : α → Bool} {as bs : List α}
    (each : ∀ (j : Nat) (a : α), as[j]? = some a → p a = true →
      ∃ b, bs[j]? = some b ∧ q b = true) : as.countP p ≤ bs.countP q := by
  induction as generalizing bs with
  | nil => exact Nat.zero_le _
  | cons a rest ih =>
    cases bs with
    | nil =>
      have nobody : ∀ c ∈ a :: rest, ¬ p c = true := by
        intro c mem holds
        obtain ⟨j, at_j⟩ := List.mem_iff_getElem?.mp mem
        obtain ⟨b, none_j, -⟩ := each j c at_j holds
        cases none_j
      rw [List.countP_eq_zero.mpr nobody]
      exact Nat.zero_le _
    | cons b others =>
      have later : rest.countP p ≤ others.countP q := by
        refine ih fun j c at_j holds => ?_
        have found := each (j + 1) c at_j holds
        exact found
      have first : (if p a then 1 else 0) ≤ if q b then 1 else 0 := by
        split
        next holds =>
          obtain ⟨b', at_zero, holds⟩ := each 0 a rfl holds
          cases at_zero
          rw [if_pos holds]
        next => exact Nat.zero_le _
      rw [List.countP_cons, List.countP_cons]
      exact Nat.add_le_add later first

theorem take_strictTwins (gold row : List Mention) (j : Nat) :
    (strictTwins gold row).take j = strictTwins gold (row.take j) := by
  induction row generalizing gold j with
  | nil => rw [strictTwins, List.take_nil, strictTwins]
  | cons m rest ih =>
    cases j with
    | zero => rfl
    | succ j =>
      rw [strictTwins_cons, List.take_succ_cons, List.take_succ_cons, strictTwins_cons, ih]

/-! ## Matchings of equal heads -/

section Heads

variable {gold : List Mention}

/-- Each mention that claims something claims a gold mention with its head. -/
def PairsHeads (gold out : List Mention) : Prop :=
  ∀ m ∈ out, m.hasTwin = true → ∃ g ∈ gold, g.head = m.head ∧ g.id = m.id

theorem count_head_paired (ms : List Mention) (head : Nat) :
    ((ms.filter Mention.hasTwin).map Mention.head).count head =
      (claims (ms.filter fun m => m.head == head)).length := by
  rw [claims, List.length_map, List.filter_filter, ← List.countP_eq_length_filter, List.count,
    List.countP_map, List.countP_filter]
  exact List.countP_congr fun m _ => by rw [Bool.and_comm]; rfl

/-- Of matchings that pair equal heads only, one that leaves no mention alone for whose head a gold
mention is left pairs the most. -/
theorem countP_le_of_exhausted {out out' : List Mention} (once : (gold.map Mention.id).Nodup)
    (heads : out.map Mention.head = out'.map Mention.head) (distinct : (claims out).Nodup)
    (pairs : PairsHeads gold out) (pairs' : PairsHeads gold out')
    (exhausted : ∀ m ∈ out', m.hasTwin = false → ∀ g ∈ gold, g.head = m.head →
      g.id ∈ claims out') : out.countP Mention.hasTwin ≤ out'.countP Mention.hasTwin := by
  have each : ∀ head, ((out.filter Mention.hasTwin).map Mention.head).count head ≤
      ((out'.filter Mention.hasTwin).map Mention.head).count head := by
    intro head
    by_cases full : ∀ m ∈ out', m.head = head → m.hasTwin = true
    · -- all mentions with the head are paired
      calc ((out.filter Mention.hasTwin).map Mention.head).count head
          ≤ (out.map Mention.head).count head :=
            (List.filter_sublist.map Mention.head).count_le head
        _ = (out'.map Mention.head).count head := by rw [heads]
        _ = ((out'.filter Mention.hasTwin).map Mention.head).count head := by
            simp only [List.count, List.countP_map, List.countP_filter]
            refine List.countP_congr fun m mem => ?_
            rw [Bool.and_eq_true, Function.comp_apply, beq_iff_eq]
            exact (and_iff_left_of_imp (full m mem)).symm
    · -- all gold mentions with the head are claimed
      obtain ⟨alone, mem, here, single⟩ :
          ∃ m ∈ out', m.head = head ∧ m.hasTwin = false := by simpa using full
      rw [count_head_paired, count_head_paired]
      refine (List.subperm_of_subset ?_ fun id claimed => ?_).length_le
      · exact distinct.sublist ((List.filter_sublist.filter _).map _)
      · obtain ⟨m, listed, twin, rfl⟩ := mem_claims_iff.mp claimed
        obtain ⟨listed, atHead⟩ := List.mem_filter.mp listed
        obtain ⟨g, isGold, sameHead, id⟩ := pairs m listed twin
        have headed : g.head = head := sameHead.trans (beq_iff_eq.mp atHead)
        have claimed := exhausted alone mem single g isGold (headed.trans here.symm)
        obtain ⟨m', listed', twin', id'⟩ := mem_claims_iff.mp claimed
        obtain ⟨g', isGold', sameHead', id''⟩ := pairs' m' listed' twin'
        have eq : g' = g := List.inj_on_of_nodup_map once isGold' isGold (id''.trans id')
        have atHead' : m'.head = head := by rw [← sameHead', eq, headed]
        exact mem_claims_iff.mpr
          ⟨m', List.mem_filter.mpr ⟨listed', beq_iff_eq.mpr atHead'⟩, twin', id'.trans id⟩
  have sub := List.subperm_iff_count.mpr each
  simpa [List.countP_eq_length_filter] using sub.length_le

end Heads

/-! ## What the relaxed policy adds -/

section Policies

variable {gold row : List Mention}

theorem exists_of_strictTwins (once : (gold.map Mention.id).Nodup)
    (fresh : ∀ m ∈ row, m.hasTwin = false) {j : Nat} {m' : Mention}
    (out_j : (strictTwins gold row)[j]? = some m') (twin : m'.hasTwin = true) :
    ∃ m id, row[j]? = some m ∧ m.claiming id = m' ∧
      (idsAt gold m.span)[((row.map Mention.span).take j).count m.span]? = some id := by
  have length : (strictTwins gold row).length = row.length := by
    have same := map_strictTwins (f := fun _ => ()) (fun _ _ => rfl) gold row
    simpa using congrArg List.length same
  have lt : j < row.length := length ▸ (List.getElem?_eq_some_iff.mp out_j).1
  have at_j : row[j]? = some row[j] := List.getElem?_eq_getElem lt
  rw [getElem?_strictTwins once at_j] at out_j
  refine ⟨row[j], ?_⟩
  cases at_k : (idsAt gold row[j].span)[((row.map Mention.span).take j).count row[j].span]? with
  | none =>
    rw [at_k] at out_j
    cases out_j
    cases (fresh row[j] (List.getElem_mem lt)).symm.trans twin
  | some id =>
    rw [at_k] at out_j
    exact ⟨id, at_j, Option.some.inj out_j, rfl⟩

theorem Extends.countP_le {strict relaxed : List Mention} (h : Extends gold strict relaxed) :
    strict.countP Mention.hasTwin ≤ relaxed.countP Mention.hasTwin := by
  refine countP_le_of_getElem? fun j m strict_j twin => ?_
  obtain ⟨g, -, -, relaxed_j⟩ := h j m strict_j twin
  exact ⟨_, relaxed_j, rfl⟩

theorem length_filter_claims (ms : List Mention) (p : MentionId → Bool) :
    ((claims ms).filter p).length = ms.countP fun m => p m.id && m.hasTwin := by
  rw [claims, List.filter_map, List.length_map, List.filter_filter, List.countP_eq_length_filter]
  rfl

section Compared

variable (ascending : (gold.map Mention.id).Pairwise (· < ·))
  (fresh : ∀ m ∈ row, m.hasTwin = false)
include ascending fresh

/-- Relaxed matching adds to strict matching exactly if every mention that stands behind another one
with its span, and gets a twin under the strict policy, meets its span at its head. -/
theorem extends_iff :
    Extends gold (strictTwins gold row) (relaxedTwins gold row) ↔
      ∀ (j : Nat) (m : Mention), row[j]? = some m → m.span ∈ (row.map Mention.span).take j →
        ((row.map Mention.span).take j).count m.span < (gold.map Mention.span).count m.span →
          ∃ g ∈ gold, g.span = m.span ∧
            (headQueue gold row m.head)[turnAt gold row j m.head]? = some g.id := by
  have once : (gold.map Mention.id).Nodup := ascending.imp Nat.ne_of_lt
  constructor
  · intro extension j m at_j seen few
    obtain ⟨id, at_k⟩ : ∃ id,
        (idsAt gold m.span)[((row.map Mention.span).take j).count m.span]? = some id := by
      rw [← length_idsAt] at few
      exact ⟨_, List.getElem?_eq_getElem few⟩
    have strict_j := getElem?_strictTwins once at_j
    rw [at_k] at strict_j
    obtain ⟨g, isGold, spanned, relaxed_j⟩ := extension j _ strict_j rfl
    rw [getElem?_relaxedTwins ascending fresh at_j] at relaxed_j
    have new : m.hasTwin = false := fresh m (List.mem_of_getElem? at_j)
    have claim := (claiming?_eq_claiming_iff new).mp (Option.some.inj relaxed_j)
    rw [relaxedClaim?, spanClaim?, if_pos seen, Option.none_or] at claim
    exact ⟨g, isGold, spanned, claim⟩
  · intro met j m' strict_j twin
    obtain ⟨m, id, at_j, rfl, at_k⟩ := exists_of_strictTwins once fresh strict_j twin
    have few : ((row.map Mention.span).take j).count m.span <
        (gold.map Mention.span).count m.span := by
      rw [← length_idsAt]
      exact (List.getElem?_eq_some_iff.mp at_k).1
    have relaxed_j := getElem?_relaxedTwins ascending fresh at_j
    by_cases seen : m.span ∈ (row.map Mention.span).take j
    · obtain ⟨g, isGold, spanned, turn⟩ := met j m at_j seen few
      rw [relaxedClaim?, spanClaim?, if_pos seen, Option.none_or, turn] at relaxed_j
      exact ⟨g, isGold, spanned, relaxed_j⟩
    · -- the first mention with a span claims by it
      rw [List.count_eq_zero.mpr seen, ← List.head?_eq_getElem?] at at_k
      obtain ⟨g, isGold, spanned, rfl⟩ := mem_idsAt_iff.mp (List.mem_of_mem_head? at_k)
      rw [relaxedClaim?, spanClaim?, if_neg seen, at_k, Option.some_or] at relaxed_j
      exact ⟨g, isGold, spanned, relaxed_j⟩

/-- If no span occurs twice both among the gold and among the predicted mentions, the relaxed policy
adds to the strict one. -/
theorem extends_of_once (single : ∀ span, (gold.map Mention.span).count span ≤ 1 ∨
      (row.map Mention.span).count span ≤ 1) :
    Extends gold (strictTwins gold row) (relaxedTwins gold row) := by
  refine (extends_iff ascending fresh).mpr fun j m at_j seen few => ?_
  have before : 1 ≤ ((row.map Mention.span).take j).count m.span := List.count_pos_iff.mpr seen
  have both : ((row.map Mention.span).take (j + 1)).count m.span =
      ((row.map Mention.span).take j).count m.span + 1 := by
    have span_j : (row.map Mention.span)[j]? = some m.span := by
      rw [List.getElem?_map, at_j, Option.map_some]
    rw [List.take_add_one, span_j, Option.toList_some, List.count_append, List.count_singleton_self]
  have all : ((row.map Mention.span).take (j + 1)).count m.span ≤
      (row.map Mention.span).count m.span := (List.take_sublist _ _).count_le _
  have one := single m.span
  omega

/-- Where the strict policy has used up the gold mentions of a span, a relaxed policy that adds to
it has done so as well. -/
theorem Extends.claimed_before
    (h : Extends gold (strictTwins gold row) (relaxedTwins gold row)) {span : Nat × Nat} {j : Nat}
    (used : (idsAt gold span).length ≤ ((row.map Mention.span).take j).count span) :
    ∀ id ∈ idsAt gold span, id ∈ claims ((relaxedTwins gold row).take j) := by
  have once : (gold.map Mention.id).Nodup := ascending.imp Nat.ne_of_lt
  have freshBefore : ∀ m ∈ row.take j, m.hasTwin = false := fun m mem =>
    fresh m (List.mem_of_mem_take mem)
  have strictly : (idsAt gold span).length =
      ((strictTwins gold row).take j).countP fun m => m.hasTwin && m.span == span := by
    have claimed := congrArg List.length (claims_strictTwins_at once freshBefore span)
    rw [List.map_take, List.take_of_length_le used, claims, List.length_map, List.filter_filter,
      ← List.countP_eq_length_filter, ← take_strictTwins] at claimed
    exact claimed.symm
  have relaxedly : (idsAt gold span).length ≤
      ((claims ((relaxedTwins gold row).take j)).filter fun id => id ∈ idsAt gold span).length := by
    rw [strictly, length_filter_claims]
    refine countP_le_of_getElem? fun k m taken holds => ?_
    obtain ⟨twin, spanned⟩ := Bool.and_eq_true_iff.mp holds
    have lt : k < j := by
      have short := (List.getElem?_eq_some_iff.mp taken).1
      rw [List.length_take] at short
      omega
    rw [List.getElem?_take_of_lt lt] at taken
    obtain ⟨g, isGold, same, relaxed_k⟩ := h k m taken twin
    have listed : g.id ∈ idsAt gold span :=
      mem_idsAt_iff.mpr ⟨g, isGold, same.trans (beq_iff_eq.mp spanned), rfl⟩
    refine ⟨m.claiming g.id, ?_, Bool.and_eq_true_iff.mpr ⟨decide_eq_true listed, rfl⟩⟩
    rw [List.getElem?_take_of_lt lt, relaxed_k]
  have distinct : ((claims ((relaxedTwins gold row).take j)).filter
      fun id => id ∈ idsAt gold span).Nodup := by
    refine (relaxedlyTwinned ascending fresh).once.sublist (List.filter_sublist.trans ?_)
    exact ((List.take_sublist _ _).filter _).map _
  have inside : ((claims ((relaxedTwins gold row).take j)).filter
      fun id => id ∈ idsAt gold span) ⊆ idsAt gold span := by
    intro id mem
    exact of_decide_eq_true (List.mem_filter.mp mem).2
  have all := (List.subperm_of_subset distinct inside).perm_of_length_le relaxedly
  intro id mem
  exact List.mem_of_mem_filter (all.symm.subset mem)

/-- A mention that claims another span stands behind those that have used up its own. -/
theorem Extends.prefersSpan (h : Extends gold (strictTwins gold row) (relaxedTwins gold row)) :
    PrefersSpan gold row (relaxedTwins gold row) := by
  have once : (gold.map Mention.id).Nodup := ascending.imp Nat.ne_of_lt
  intro j m g at_j isGold other relaxed_j own ownGold spanned
  refine h.claimed_before ascending fresh (Nat.le_of_not_lt fun few => other ?_) own.id
    (mem_idsAt_iff.mpr ⟨own, ownGold, spanned, rfl⟩)
  -- otherwise the strict policy pairs the mention, and the relaxed one with its own span
  have strict_j := getElem?_strictTwins once at_j
  rw [List.getElem?_eq_getElem few] at strict_j
  obtain ⟨g', isGold', spanned', relaxed_j'⟩ := h j _ strict_j rfl
  have same : (m.claiming g.id).id = g'.id := by
    rw [Option.some.inj (relaxed_j.symm.trans relaxed_j')]
    rfl
  have eq : g = g' := List.inj_on_of_nodup_map once isGold isGold' same
  rw [eq]
  exact spanned'

/-- Where mentions with one span have one head, the relaxed policy finds no fewer twins. -/
theorem countP_strictTwins_le
    (decided : ∀ m ∈ row, ∀ g ∈ gold, g.span = m.span → g.head = m.head) :
    (strictTwins gold row).countP Mention.hasTwin ≤
      (relaxedTwins gold row).countP Mention.hasTwin := by
  have once : (gold.map Mention.id).Nodup := ascending.imp Nat.ne_of_lt
  have twinned := relaxedlyTwinned ascending fresh
  refine countP_le_of_exhausted once ?_ ?_ ?_ ?_ twinned.exhausted
  · have strictly := TwinPolicy.strict.map_pair (f := Mention.head) (fun _ _ => rfl) gold row
    have relaxedly := TwinPolicy.relaxed.map_pair (f := Mention.head) (fun _ _ => rfl) gold row
    exact strictly.trans relaxedly.symm
  · exact (strictTwins_matching fresh gold).nodup_claims fresh once
  · intro m' mem twin
    obtain ⟨j, out_j⟩ := List.mem_iff_getElem?.mp mem
    obtain ⟨m, id, at_j, rfl, at_k⟩ := exists_of_strictTwins once fresh out_j twin
    obtain ⟨g, isGold, spanned, same⟩ := mem_idsAt_iff.mp (List.mem_of_getElem? at_k)
    exact ⟨g, isGold, decided m (List.mem_of_getElem? at_j) g isGold spanned, same⟩
  · intro m' mem twin
    obtain ⟨j, out_j⟩ := List.mem_iff_getElem?.mp mem
    have lt : j < row.length := twinned.length ▸ (List.getElem?_eq_some_iff.mp out_j).1
    have at_j : row[j]? = some row[j] := List.getElem?_eq_getElem lt
    obtain ⟨id?, claim, agrees⟩ := twinned.agree j _ at_j
    rw [out_j] at claim
    cases id? with
    | none =>
      cases claim
      cases (fresh row[j] (List.getElem_mem lt)).symm.trans twin
    | some id =>
      cases claim
      obtain ⟨g, isGold, spanned | headed, same⟩ := agrees id rfl
      · exact ⟨g, isGold, decided row[j] (List.getElem_mem lt) g isGold spanned, same⟩
      · exact ⟨g, isGold, headed, same⟩

theorem compared : Compared gold row (strictTwins gold row) (relaxedTwins gold row) where
  extends_iff := extends_iff ascending fresh
  noFewer := Extends.countP_le
  prefersSpan := Extends.prefersSpan ascending fresh
  once := extends_of_once ascending fresh
  decided := countP_strictTwins_le ascending fresh

end Compared

end Policies

namespace Document

/-- The relaxed policy adds to the strict one exactly if each mention that stands behind another one
with its span, and gets a twin under the strict policy, meets its span in the line of its head. -/
theorem findTwins_relaxed_extends_iff {doc : Document} (fresh : doc.Fresh) (lex : Lexicon)
    {raw : RawMentions} (inside : ∀ entry ∈ doc.numberedSpans raw, entry.HeadInside) :
    ∃ taken next built, doc.takeGold lex raw.gold? = (taken, next, none) ∧
      buildMentions lex next (spansOf taken.sentences raw.predicted) = (built, none) ∧
      ∀ i s, doc.sentences[i]? = some s → ∃ row strict relaxed,
        (rowsOf taken.sentences.length built)[i]? = some row ∧
        (taken.findTwins .strict (rowsOf taken.sentences.length built)).2[i]? = some strict ∧
        (taken.findTwins .relaxed (rowsOf taken.sentences.length built)).2[i]? = some relaxed ∧
        row.map Mention.span = s.spansInside (raw.predicted[i]?.getD []) ∧
        (taken.goldOf i).map Mention.span =
          s.spansInside ((raw.gold?.getD [])[i]?.getD []) ∧
        Compared (taken.goldOf i) row strict relaxed := by
  obtain ⟨taken, next, gold, built, seeking⟩ := exists_seekingTwins fresh lex inside
  refine ⟨taken, next, built, seeking.taking, seeking.building, fun i s at_i => ?_⟩
  have row_i := seeking.getElem?_rowsOf at_i
  have out_i : ∀ policy : TwinPolicy,
      (taken.findTwins policy (rowsOf taken.sentences.length built)).2[i]? =
        some (policy.pair (taken.goldOf i) (built.filter fun m => m.sentence == i)) := by
    intro policy
    rw [SeekingTwins.getElem?_findTwins, row_i, Option.map_some]
  exact ⟨_, _, _, row_i, out_i .strict, out_i .relaxed, seeking.map_span_row at_i,
    seeking.map_span_goldOf at_i, compared (seeking.ascending_goldOf i) (seeking.fresh_row i)⟩

/-- Two gold mentions of one span in front of one with the same head: the second predicted mention
meets its span in the line. -/
theorem findTwins_relaxed_extends_iff_in_line :
    let lex : Lexicon := ⟨{}, {}, {}, {}, {}⟩
    let doc := ofSentences "d" [
      { tokens := [.ofWord "the" "DT", .ofWord "old" "JJ", .ofWord "man" "NN",
          .ofWord "slept" "VBD"] }]
    let whole : MentionSpan := { start := 0, stop := 3 }
    let man : MentionSpan := { start := 2, stop := 3 }
    let raw : RawMentions := { predicted := [[whole, whole]], gold? := some [[whole, whole, man]] }
    doc.Fresh ∧ (∀ entry ∈ doc.numberedSpans raw, entry.HeadInside) ∧
      ∃ taken next built row strict relaxed, doc.takeGold lex raw.gold? = (taken, next, none) ∧
        buildMentions lex next (spansOf taken.sentences raw.predicted) = (built, none) ∧
        (taken.findTwins .strict (rowsOf taken.sentences.length built)).2[0]? = some strict ∧
        (taken.findTwins .relaxed (rowsOf taken.sentences.length built)).2[0]? = some relaxed ∧
        Compared (taken.goldOf 0) row strict relaxed ∧
        strict.map Mention.id = [0, 1] ∧ relaxed.map Mention.id = [0, 1] := by
  intro lex doc whole man raw
  have fresh : doc.Fresh := fresh_ofSentences _ _
  have bare : ∀ entry ∈ doc.numberedSpans raw, entry.2.2.head? = none := by decide +kernel
  have inside : ∀ entry ∈ doc.numberedSpans raw, entry.HeadInside := by
    intro entry mem head given
    cases (bare entry mem).symm.trans given
  have claimed : ∀ policy : TwinPolicy, ((((doc.takeGold lex raw.gold?).1.findTwins policy
      (rowsOf (doc.takeGold lex raw.gold?).1.sentences.length
        (buildMentions lex (doc.takeGold lex raw.gold?).2.1
          (spansOf (doc.takeGold lex raw.gold?).1.sentences raw.predicted)).1)).2)[0]?.map
            (List.map Mention.id)) = some [0, 1] := by
    intro policy
    cases policy <;> decide +kernel
  obtain ⟨taken, next, built, taking, building, all⟩ :=
    findTwins_relaxed_extends_iff fresh lex inside
  obtain ⟨row, strict, relaxed, -, strict_0, relaxed_0, -, -, compared⟩ := all 0 _ rfl
  rw [taking] at claimed
  dsimp only at claimed
  rw [building] at claimed
  dsimp only at claimed
  have strictly := claimed .strict
  have relaxedly := claimed .relaxed
  rw [strict_0] at strictly
  rw [relaxed_0] at relaxedly
  exact ⟨fresh, inside, taken, next, built, row, strict, relaxed, taking, building, strict_0,
    relaxed_0, compared, Option.some.inj strictly, Option.some.inj relaxedly⟩

/-- The same with the gold mention of the other span in front: the second predicted mention claims
that one, and its own span goes without. -/
theorem findTwins_relaxed_passes_over :
    let lex : Lexicon := ⟨{}, {}, {}, {}, {}⟩
    let doc := ofSentences "d" [
      { tokens := [.ofWord "the" "DT", .ofWord "old" "JJ", .ofWord "man" "NN",
          .ofWord "slept" "VBD"] }]
    let whole : MentionSpan := { start := 0, stop := 3 }
    let man : MentionSpan := { start := 2, stop := 3 }
    let raw : RawMentions := { predicted := [[whole, whole]], gold? := some [[whole, man, whole]] }
    let taken := (doc.takeGold lex raw.gold?).1
    let row := (buildMentions lex (doc.takeGold lex raw.gold?).2.1
      (spansOf taken.sentences raw.predicted)).1
    ∃ strict relaxed, (taken.findTwins .strict [row]).2 = [strict] ∧
      (taken.findTwins .relaxed [row]).2 = [relaxed] ∧
      ¬ Extends (taken.goldOf 0) strict relaxed ∧ ¬ PrefersSpan (taken.goldOf 0) row relaxed := by
  intro lex doc whole man raw taken row
  refine ⟨strictTwins (taken.goldOf 0) row, relaxedTwins (taken.goldOf 0) row, rfl, rfl, ?_, ?_⟩
  · intro extension
    have listed : ∀ g ∈ taken.goldOf 0, g.span = (0, 3) →
        (relaxedTwins (taken.goldOf 0) row)[1]?.map Mention.id ≠ some g.id := by decide +kernel
    have paired : (strictTwins (taken.goldOf 0) row)[1]?.map (fun m => (m.span, m.hasTwin)) =
        some ((0, 3), true) := by decide +kernel
    obtain ⟨m, strict_1, known⟩ := Option.map_eq_some_iff.mp paired
    obtain ⟨span, twin⟩ := Prod.mk.inj known
    obtain ⟨g, isGold, same, relaxed_1⟩ := extension 1 m strict_1 twin
    refine listed g isGold (same.trans span) ?_
    rw [relaxed_1]
    rfl
  · intro prefers
    have second : ∀ m ∈ row[1]?, ∀ g ∈ taken.goldOf 0, g.span ≠ m.span →
        (relaxedTwins (taken.goldOf 0) row)[1]? = some (m.claiming g.id) →
          ∀ own ∈ taken.goldOf 0, own.span = m.span →
            own.id ∈ claims ((relaxedTwins (taken.goldOf 0) row).take 1) :=
      fun m at_1 g isGold => prefers 1 m g at_1 isGold
    exact absurd second (by decide +kernel)

end Document

end Discourse
