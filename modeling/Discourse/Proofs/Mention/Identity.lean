import Discourse.Proofs.Mention.Registration
/-!
# Identity

Gold mentions are numbered from 0, and a predicted mention has one of these numbers exactly if it is
the twin of the gold mention with that number.  No gold mention has two twins, so no two predicted
mentions have one id, and each in-range span has its own entry in the table of the document.
-/

namespace Discourse

namespace Matching

variable {gold built out : List Mention} {goldEntries entries : List PlacedSpan}

/-- Where gold mentions are numbered first, a predicted mention has one of their numbers exactly if
it is a twin. -/
theorem id_lt_iff (h : Matching gold [] built out) (goldNumbered : Numbered 0 goldEntries gold)
    (builtNumbered : Numbered gold.length entries built) {m : Mention} (mem : m ∈ out) :
    m.id < gold.length ↔ m.hasTwin = true := by
  constructor
  · intro lt
    by_contra single
    have kept : m.id ∈ unclaiming built := by
      refine h.unclaimed.subset (List.mem_map_of_mem (List.mem_filter.mpr ⟨mem, ?_⟩))
      simpa using single
    obtain ⟨m', mem', same⟩ := List.mem_map.mp kept
    obtain ⟨i, number, -⟩ := builtNumbered.exists_getElem? (List.mem_of_mem_filter mem')
    rw [← same, number] at lt
    exact Nat.not_lt.mpr (Nat.le_add_right gold.length i) lt
  · intro twin
    have claimed := (h.claims_subperm builtNumbered.unclaimed).subset
      (mem_claims_iff.mpr ⟨m, mem, twin, rfl⟩)
    obtain ⟨g, isGold, same⟩ := List.mem_map.mp claimed
    obtain ⟨i, number, at_i⟩ := goldNumbered.exists_getElem? isGold
    rw [← same, number, Nat.zero_add]
    exact (List.getElem?_eq_some_iff.mp at_i).1

theorem ids_nodup (h : Matching gold [] built out) (goldNumbered : Numbered 0 goldEntries gold)
    (builtNumbered : Numbered gold.length entries built) : (out.map Mention.id).Nodup := by
  have parts := claims_append_unclaiming_perm out
  have claimedOnce := h.nodup_claims builtNumbered.unclaimed goldNumbered.nodup
  refine parts.nodup_iff.mp (List.nodup_append'.mpr ⟨claimedOnce, ?_, ?_⟩)
  · refine List.Nodup.sublist (h.unclaimed.trans ?_) builtNumbered.nodup
    exact List.filter_sublist.map Mention.id
  · -- an id that is claimed has another number than one that is not
    intro id claimed kept
    obtain ⟨m, mem, twin, rfl⟩ := mem_claims_iff.mp claimed
    obtain ⟨m', mem', same⟩ := List.mem_map.mp kept
    obtain ⟨mem', single⟩ := List.mem_filter.mp mem'
    have lt := (h.id_lt_iff goldNumbered builtNumbered mem).mpr twin
    rw [← same, h.id_lt_iff goldNumbered builtNumbered mem'] at lt
    simp [lt] at single

end Matching

namespace Document

/-- The ids after the mentions of a fresh document have been taken up. -/
structure Identified (doc d : Document) (raw : RawMentions) (count : Nat) : Prop where
  /-- Gold mentions are numbered from 0 through the rows of the sentences. -/
  goldIds : d.goldRows.flatten =
    List.range (spansWithin doc.sentences (raw.gold?.getD [])).length
  goldRow : ∀ (i : Nat) row, d.goldRows[i]? = some row → ∀ id ∈ row,
    ∃ g, d.goldMentions.find? id = some g ∧ g.sentence = i
  goldSite : ∀ id : MentionId, (d.goldMentions.find? id).map Mention.site =
    (spansWithin doc.sentences (raw.gold?.getD []))[id]?.map PlacedSpan.site
  /-- Predicted mentions have different ids, which are those of the table. -/
  distinct : d.predicted.flatten.Nodup
  listed : d.predicted.flatten.Perm d.mentions.keys
  sites : (d.mentions.values.map Mention.site).Perm
    ((spansWithin doc.sentences raw.predicted).map PlacedSpan.site)
  /-- A predicted mention has a gold id exactly if it is a twin, of a gold mention beside it. -/
  twin : ∀ id m, d.mentions.find? id = some m → m.id = id ∧
    (id < (spansWithin doc.sentences (raw.gold?.getD [])).length ↔ m.hasTwin = true) ∧
    (m.hasTwin = true → ∃ g, d.goldMentions.find? id = some g ∧ g.sentence = m.sentence ∧
      g.hasTwin = true)
  counted : count = d.mentions.values.countP Mention.hasTwin
  countedGold : count = d.goldMentions.values.countP Mention.hasTwin

namespace TakenUp

variable {doc d : Document} {raw : RawMentions} {count : Nat} {gold built filled : List Mention}

theorem length_gold (h : TakenUp doc d raw count gold built filled) :
    gold.length = (spansWithin doc.sentences (raw.gold?.getD [])).length := by
  have lengths := congrArg List.length h.goldNumbered.map_site
  simpa using lengths

theorem claims_subperm (h : TakenUp doc d raw count gold built filled) :
    (claims filled).Subperm (gold.map Mention.id) :=
  h.matching.claims_subperm h.builtNumbered.unclaimed

theorem claims_nodup (h : TakenUp doc d raw count gold built filled) : (claims filled).Nodup :=
  h.matching.nodup_claims h.builtNumbered.unclaimed h.goldNumbered.nodup

/-- A predicted mention has a number of a gold mention exactly if it is a twin. -/
theorem id_lt_iff (h : TakenUp doc d raw count gold built filled) {m : Mention}
    (mem : m ∈ filled) : m.id < gold.length ↔ m.hasTwin = true :=
  h.matching.id_lt_iff h.goldNumbered h.builtNumbered mem

theorem ids_nodup (h : TakenUp doc d raw count gold built filled) :
    (filled.map Mention.id).Nodup :=
  h.matching.ids_nodup h.goldNumbered h.builtNumbered

theorem find?_mentions_iff (h : TakenUp doc d raw count gold built filled) (id : MentionId)
    (m : Mention) : d.mentions.find? id = some m ↔ m ∈ filled ∧ m.id = id := by
  rw [h.mentions]
  exact find?_tableOf_iff h.ids_nodup id m

/-! ## Gold mentions of the document -/

theorem find?_goldMentions (h : TakenUp doc d raw count gold built filled) (id : MentionId) :
    d.goldMentions.find? id =
      if id ∈ claims filled then ((withAntecedents (tableOf gold)).find? id).map claimedGold
      else (withAntecedents (tableOf gold)).find? id := by
  rw [h.goldMentions]
  exact Table.find?_foldl_modify (fun _ => claimedGold) (fun _ _ => rfl) (claims filled) _ id

theorem holdsGold (h : TakenUp doc d raw count gold built filled) :
    HoldsGold (withAntecedents (tableOf gold)) gold :=
  (HoldsGold.tableOf h.goldNumbered.nodup).withAntecedents

/-- A gold mention of the document is the one built, but for its antecedent and its twin. -/
theorem find?_goldMentions_of_mem (h : TakenUp doc d raw count gold built filled) {g : Mention}
    (isGold : g ∈ gold) : d.goldMentions.find? g.id = some { g with
      antecedent? := ((withAntecedents (tableOf gold)).find? g.id).bind Mention.antecedent?
      hasTwin := decide (g.id ∈ claims filled) } := by
  obtain ⟨m, before⟩ := h.holdsGold.complete g isGold
  obtain ⟨g', isGold', same, eq⟩ := h.holdsGold.found g.id m before
  have eq_g : g' = g := List.inj_on_of_nodup_map h.goldNumbered.nodup isGold' isGold same
  rw [eq_g] at eq
  rw [h.find?_goldMentions, before, Option.bind_some, eq]
  split
  next claimed => simp [claimedGold, claimed]
  next free => simp [free, ← h.goldNumbered.unclaimed g isGold]

theorem exists_mem_of_find?_goldMentions (h : TakenUp doc d raw count gold built filled)
    {id : MentionId} {m : Mention} (found : d.goldMentions.find? id = some m) :
    ∃ g ∈ gold, g.id = id := by
  cases before : (withAntecedents (tableOf gold)).find? id with
  | some m' =>
    obtain ⟨g, isGold, same, -⟩ := h.holdsGold.found id m' before
    exact ⟨g, isGold, same⟩
  | none => simp [h.find?_goldMentions, before] at found

theorem find?_goldMentions_site (h : TakenUp doc d raw count gold built filled) (id : MentionId) :
    (d.goldMentions.find? id).map Mention.site = gold[id]?.map Mention.site := by
  cases at_id : gold[id]? with
  | some g =>
    have number := h.goldNumbered.id_of_getElem? at_id
    have found := h.find?_goldMentions_of_mem (List.mem_of_getElem? at_id)
    rw [number, Nat.zero_add] at found
    rw [found]
    rfl
  | none =>
    cases found : d.goldMentions.find? id with
    | none => rfl
    | some m =>
      obtain ⟨g, isGold, same⟩ := h.exists_mem_of_find?_goldMentions found
      obtain ⟨i, number, at_i⟩ := h.goldNumbered.exists_getElem? isGold
      rw [← same, number, Nat.zero_add, at_i] at at_id
      cases at_id

theorem flatten_goldRows (h : TakenUp doc d raw count gold built filled) :
    d.goldRows.flatten = gold.map Mention.id := by
  rw [goldRows, h.goldLists, flatten_goldIds h.goldNumbered]

theorem mem_goldRows_iff (h : TakenUp doc d raw count gold built filled) (id : MentionId) :
    id ∈ d.goldRows.flatten ↔ ∃ g ∈ gold, g.id = id := by
  rw [h.flatten_goldRows, List.mem_map]

theorem sentence_of_mem_goldRow (h : TakenUp doc d raw count gold built filled) {i : Nat}
    {row : List MentionId} (row_i : d.goldRows[i]? = some row) {id : MentionId} (mem : id ∈ row) :
    ∃ g ∈ gold, g.id = id ∧ g.sentence = i := by
  have ids := row_goldIds h.goldNumbered i
  rw [← h.goldLists, ← goldRows, row_i, Option.getD_some] at ids
  rw [ids] at mem
  obtain ⟨g, inRow, same⟩ := List.mem_map.mp mem
  obtain ⟨isGold, here⟩ := List.mem_filter.mp inRow
  exact ⟨g, isGold, same, by simpa using here⟩

theorem identified (h : TakenUp doc d raw count gold built filled) :
    Identified doc d raw count where
  goldIds := by
    rw [h.flatten_goldRows, h.goldNumbered.ids, h.length_gold, List.range_eq_range']
  goldRow := by
    intro i row row_i id mem
    obtain ⟨g, isGold, rfl, here⟩ := h.sentence_of_mem_goldRow row_i mem
    have found := h.find?_goldMentions_of_mem isGold
    exact ⟨_, found, here⟩
  goldSite := by
    intro id
    rw [h.find?_goldMentions_site, ← List.getElem?_map, h.goldNumbered.map_site, List.getElem?_map]
  distinct := h.predicted.nodup_iff.mpr h.ids_nodup
  listed := by
    rw [h.mentions]
    exact h.predicted.trans (keys_tableOf_perm h.ids_nodup).symm
  sites := by
    rw [h.mentions, ← h.builtNumbered.map_site, ← h.matching.sites]
    exact (values_tableOf_perm h.ids_nodup).map Mention.site
  twin := by
    intro id m found
    obtain ⟨mem, rfl⟩ := (h.find?_mentions_iff id m).mp found
    rw [← h.length_gold]
    refine ⟨rfl, h.id_lt_iff mem, fun twin => ?_⟩
    obtain ⟨g, isGold, same, sentence⟩ := h.paired m mem twin
    have found := h.find?_goldMentions_of_mem isGold
    have claimed : g.id ∈ claims filled := same ▸ mem_claims_iff.mpr ⟨m, mem, twin, rfl⟩
    rw [← same]
    exact ⟨_, found, sentence, decide_eq_true claimed⟩
  counted := by
    rw [h.counted, h.mentions]
    exact ((values_tableOf_perm h.ids_nodup).countP_eq Mention.hasTwin).symm
  countedGold := by
    have twins : count = (claims filled).length := by
      rw [h.counted, claims, List.length_map, List.countP_eq_length_filter]
    rw [twins]
    refine (Table.countP_values d.goldMentions Mention.hasTwin h.claims_nodup fun id => ?_).symm
    constructor
    · intro claimed
      obtain ⟨g, isGold, rfl⟩ := List.mem_map.mp (h.claims_subperm.subset claimed)
      have found := h.find?_goldMentions_of_mem isGold
      exact ⟨_, found, decide_eq_true claimed⟩
    · rintro ⟨m, found, twin⟩
      obtain ⟨g, isGold, rfl⟩ := h.exists_mem_of_find?_goldMentions found
      have found' := h.find?_goldMentions_of_mem isGold
      cases found'.symm.trans found
      exact of_decide_eq_true twin

end TakenUp

theorem initializeMentions_identified {doc d : Document} (fresh : doc.Fresh) {lex : Lexicon}
    {policy : TwinPolicy} {raw : RawMentions} {count : Nat}
    (ok : doc.initializeMentions lex policy raw = (d, .ok count)) :
    Identified doc d raw count := by
  obtain ⟨gold, built, filled, taken⟩ := initializeMentions_cases fresh ok
  exact taken.identified

/-- Two gold mentions have one span, which is predicted three times: one mention claims by its span,
one by its head, and the third nothing.  A fourth span ends outside the sentence. -/
theorem initializeMentions_identified_duplicates :
    let lex : Lexicon := ⟨{}, {}, {}, {}, {}⟩
    let doc := ofSentences "d" [{ tokens := [.ofWord "she" "PRP", .ofWord "ran" "VBD"] }]
    let span : MentionSpan := { start := 0, stop := 1 }
    let raw : RawMentions :=
      { predicted := [[span, span, span, { start := 1, stop := 3 }]], gold? := some [[span, span]] }
    let d := (doc.initializeMentions lex .relaxed raw).1
    doc.Fresh ∧ doc.initializeMentions lex .relaxed raw = (d, .ok 2) ∧
      d.predicted = [[0, 1, 4]] ∧ Identified doc d raw 2 := by
  intro lex doc span raw d
  have fresh : doc.Fresh := fresh_ofSentences _ _
  have two : (doc.initializeMentions lex .relaxed raw).2 = .ok 2 := by decide +kernel
  have ok : doc.initializeMentions lex .relaxed raw = (d, .ok 2) := by rw [← two]
  have ids : d.predicted = [[0, 1, 4]] := by decide +kernel
  exact ⟨fresh, ok, ids, initializeMentions_identified fresh ok⟩

end Document

end Discourse
