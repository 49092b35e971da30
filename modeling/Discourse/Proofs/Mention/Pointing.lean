import Discourse.Proofs.Mention.Registration
/-!
# Where gold links point

A gold span names its antecedent by a number.  The data count the gold spans as they are listed; a
span outside its sentence becomes no mention and uses no id, so that the mention of a span has the
number of the spans before it that are kept for its id (`PlacedSpan.idAt`).  The link of a span is
copied as it is.  So a link leads to the mention of the span that it points at exactly if no span
before that one is dropped (`PlacedSpan.idAt_eq_self_iff`), and all links do exactly if no span is
dropped before one that is pointed at (`Document.initializeMentions_linksFollow_iff`).

Whatever gold mentions the document has had before, each new one is found at its id with its place and
the antecedent that its span names (`KeepsGold`), since antecedents are only derived where no gold
mention names one and twins are only marked.
-/

namespace Discourse

namespace PlacedSpan

/-- The antecedent that a span names, counted among the gold spans. -/
def link? (entry : PlacedSpan) : Option Nat := entry.2.2.antecedent?

/-- The id of the mention of the span with an index, if it is kept: how many of the spans before it
are. -/
def idAt (spans : List PlacedSpan) (index : Nat) : MentionId := (spans.take index).countP isWithin

variable {spans : List PlacedSpan} {index : Nat} {entry : PlacedSpan}

theorem getElem?_filter_idAt (here : spans[index]? = some entry) (within : entry.isWithin = true) :
    (spans.filter isWithin)[idAt spans index]? = some entry := by
  obtain ⟨inside, rfl⟩ := List.getElem?_eq_some_iff.mp here
  have split : spans.filter isWithin = (spans.take index).filter isWithin ++
      spans[index] :: (spans.drop (index + 1)).filter isWithin := by
    rw [← List.filter_cons_of_pos within, List.getElem_cons_drop, ← List.filter_append,
      List.take_append_drop]
  rw [split, idAt, List.countP_eq_length_filter, List.getElem?_append_right (Nat.le_refl _),
    Nat.sub_self, List.getElem?_cons_zero]

/-- The id of a span is its index exactly if all spans before it are kept. -/
theorem idAt_eq_self_iff (inside : index ≤ spans.length) :
    idAt spans index = index ↔ ∀ before ∈ spans.take index, before.isWithin = true := by
  have length : (spans.take index).length = index := List.length_take_of_le inside
  rw [idAt, ← List.countP_eq_length, length]

end PlacedSpan

/-- Every span that names an antecedent names a span within its sentence. -/
def PointWithin (spans : List PlacedSpan) : Prop :=
  ∀ entry ∈ spans, ∀ r ∈ PlacedSpan.link? entry, ∃ target ∈ spans[r]?,
    PlacedSpan.isWithin target = true

instance (spans : List PlacedSpan) : Decidable (PointWithin spans) :=
  inferInstanceAs (Decidable (∀ entry ∈ spans, ∀ r ∈ PlacedSpan.link? entry, ∃ target ∈ spans[r]?,
    PlacedSpan.isWithin target = true))

/-! ## Gold mentions that are kept -/

/-- A table has all of some mentions at their ids, each in its place and with the antecedent that it
names. -/
def KeepsGold (t : Table MentionId Mention) (gold : List Mention) : Prop :=
  ∀ g ∈ gold, ∃ m, t.find? g.id = some m ∧ m.site = g.site ∧
    ∀ r, g.antecedent? = some r → m.antecedent? = some r

namespace KeepsGold

variable {t : Table MentionId Mention} {gold : List Mention}

theorem of_insert (once : (gold.map Mention.id).Nodup) (t : Table MentionId Mention) :
    KeepsGold (gold.foldl (fun t m => t.insert m.id m) t) gold := by
  intro g mem
  refine ⟨g, ?_, rfl, fun _ => id⟩
  have keys : ((gold.map fun m => (m.id, m)).map Prod.fst).Nodup := by
    rw [List.map_map]
    exact once
  have found := Table.find?_foldl_insert_iff keys t g.id g
  rw [List.foldl_map] at found
  exact found.mpr (.inl (List.mem_map_of_mem mem))

theorem modify (h : KeepsGold t gold) (id : MentionId) {f : Mention → Mention}
    (site : ∀ m, (f m).site = m.site)
    (links : ∀ g ∈ gold, ∀ r, g.antecedent? = some r → ∀ m, (f m).antecedent? = m.antecedent?) :
    KeepsGold (t.modify id f) gold := by
  intro g mem
  obtain ⟨m, found, same, named⟩ := h g mem
  rw [Table.find?_modify]
  split
  · refine ⟨f m, by rw [found]; rfl, (site m).trans same, fun r link => ?_⟩
    rw [links g mem r link, named r link]
  · exact ⟨m, found, same, named⟩

/-- Antecedents are derived only where none is named. -/
theorem withAntecedents (h : KeepsGold t gold) : KeepsGold (withAntecedents t) gold := by
  unfold Discourse.withAntecedents
  split
  next => exact h
  next unnamed =>
    have free : ∀ g ∈ gold, ∀ r, g.antecedent? ≠ some r := by
      intro g mem r link
      obtain ⟨m, found, -, named⟩ := h g mem
      refine unnamed (List.any_eq_true.mpr ⟨m, ?_, by rw [named r link]; rfl⟩)
      exact List.mem_map.mpr ⟨(g.id, m), (Table.mem_entries_iff t _ _).mpr found, rfl⟩
    refine List.foldlRecOn (motive := fun state : _ × Table Nat MentionId =>
      KeepsGold state.1 gold) _ _ h fun state h g _ => ?_
    unfold deriveStep
    split
    next => exact h
    next => exact h.modify g.id (fun _ => rfl) fun g' mem r link => absurd link (free g' mem r)

end KeepsGold

namespace Document

variable {doc d : Document} {lex : Lexicon} {policy : TwinPolicy} {raw : RawMentions} {count : Nat}
  {rows : List (List MentionSpan)} {gold : List Mention}

theorem takeGold_keepsGold {taken : Document} {next : MentionId}
    (ok : doc.takeGold lex (some rows) = (taken, next, none)) :
    ∃ gold, Numbered 0 (spansOf doc.sentences rows) gold ∧
      taken.gold? = goldIds doc.sentences gold (some rows) ∧ KeepsGold taken.goldMentions gold := by
  unfold takeGold at ok
  dsimp only at ok
  cases built : buildMentions lex 0 (spansOf doc.sentences rows) with
  | mk gold stop? =>
    rw [built] at ok
    cases stop? with
    | some stop => cases ok
    | none =>
      have numbered := buildMentions_numbered built
      have kept := (KeepsGold.of_insert numbered.nodup doc.goldMentions).withAntecedents
      rw [deriveAntecedents_eq] at ok
      cases ok
      exact ⟨gold, numbered, rfl, kept⟩

theorem keepsGold_findTwins (h : KeepsGold doc.goldMentions gold) (policy : TwinPolicy)
    (rows : List (List Mention)) :
    (doc.findTwins policy rows).1.gold? = doc.gold? ∧
      KeepsGold (doc.findTwins policy rows).1.goldMentions gold := by
  unfold Document.findTwins
  split
  · exact ⟨rfl, h⟩
  · refine ⟨rfl, List.foldlRecOn (motive := fun t => KeepsGold t gold) _ _ h fun t h id _ => ?_⟩
    exact h.modify id (fun _ => rfl) fun _ _ _ _ _ => rfl

/-- Taking up mentions leaves the gold mentions that were built, with the links of their spans. -/
theorem initializeMentions_keepsGold (given : raw.gold? = some rows)
    (outcome : doc.initializeMentions lex policy raw = (d, .ok count)) :
    ∃ gold, Numbered 0 (spansOf doc.sentences rows) gold ∧
      d.gold? = goldIds doc.sentences gold (some rows) ∧ KeepsGold d.goldMentions gold := by
  obtain ⟨taken, next, built, marked, others, taking, -, pairing, filling, -⟩ :=
    stages_of_initializeMentions outcome
  rw [given] at taking
  obtain ⟨gold, numbered, ids, kept⟩ := takeGold_keepsGold taking
  have paired := keepsGold_findTwins kept policy (rowsOf taken.sentences.length built)
  rw [pairing] at paired
  obtain ⟨filled, -, -, frame⟩ := fillMentions_cases filling
  rw [frame]
  exact ⟨gold, numbered, paired.1.trans ids, paired.2⟩

/-! ## Links -/

/-- The gold mentions of a document are those of the spans that are kept, numbered in their order and
with the links of their spans as they are. -/
structure HasGoldOf (d : Document) (spans : List PlacedSpan) : Prop where
  ids : (d.gold?.getD []).flatten = List.range (spans.countP PlacedSpan.isWithin)
  mention : ∀ index entry, spans[index]? = some entry → PlacedSpan.isWithin entry = true →
    ∃ m, d.goldMentions.find? (PlacedSpan.idAt spans index) = some m ∧
      m.site = PlacedSpan.site entry ∧
      ∀ r, PlacedSpan.link? entry = some r → m.antecedent? = some r

/-- Whatever span a span points at, the mention of the one names the mention of the other. -/
def LinksFollow (d : Document) (spans : List PlacedSpan) : Prop :=
  ∀ index entry r, spans[index]? = some entry → PlacedSpan.isWithin entry = true →
    PlacedSpan.link? entry = some r →
      (d.goldMentions.find? (PlacedSpan.idAt spans index)).bind Mention.antecedent? =
        some (PlacedSpan.idAt spans r)

theorem hasGoldOf_of_keepsGold (numbered : Numbered 0 (spansOf doc.sentences rows) gold)
    (ids : d.gold? = goldIds doc.sentences gold (some rows))
    (kept : KeepsGold d.goldMentions gold) : d.HasGoldOf (spansOf doc.sentences rows) where
  ids := by
    have length := congrArg List.length numbered.origins
    rw [List.length_map, List.length_map, ← List.countP_eq_length_filter] at length
    rw [ids, flatten_goldIds numbered, numbered.ids, length, List.range_eq_range']
  mention := by
    intro index entry here within
    have place := congrArg (fun origins : List Origin =>
      origins[PlacedSpan.idAt (spansOf doc.sentences rows) index]?) numbered.origins
    simp only [List.getElem?_map, PlacedSpan.getElem?_filter_idAt here within, Option.map_some,
      Option.map_eq_some_iff] at place
    obtain ⟨g, built, origin⟩ := place
    obtain ⟨m, found, site, named⟩ := kept g (List.mem_of_getElem? built)
    rw [numbered.id_of_getElem? built, Nat.zero_add] at found
    have same : g.site = PlacedSpan.site entry :=
      congrArg (fun o : Origin => (o.sentence, o.span)) origin
    have link : g.antecedent? = PlacedSpan.link? entry := congrArg Origin.antecedent? origin
    exact ⟨m, found, site.trans same, fun r names => named r (link.trans names)⟩

/-- When mentions have been taken up, every gold span that was kept has its mention, and its link is
copied; all links lead to the spans that they point at exactly if no gold span was dropped before one
that is pointed at. -/
theorem initializeMentions_linksFollow_iff (given : raw.gold? = some rows)
    (points : PointWithin (spansOf doc.sentences rows))
    (outcome : doc.initializeMentions lex policy raw = (d, .ok count)) :
    d.HasGoldOf (spansOf doc.sentences rows) ∧
      (d.LinksFollow (spansOf doc.sentences rows) ↔
        ∀ entry ∈ spansOf doc.sentences rows, PlacedSpan.isWithin entry = true →
          ∀ r, PlacedSpan.link? entry = some r →
            ∀ before ∈ (spansOf doc.sentences rows).take r, PlacedSpan.isWithin before = true) := by
  obtain ⟨built, numbered, ids, kept⟩ := initializeMentions_keepsGold given outcome
  have has := hasGoldOf_of_keepsGold numbered ids kept
  generalize spansOf doc.sentences rows = spans at points has ⊢
  refine ⟨has, ?_⟩
  have copied : ∀ index entry r, spans[index]? = some entry → PlacedSpan.isWithin entry = true →
      PlacedSpan.link? entry = some r →
        (d.goldMentions.find? (PlacedSpan.idAt spans index)).bind Mention.antecedent? = some r := by
    intro index entry r here within link
    obtain ⟨m, found, -, named⟩ := has.mention index entry here within
    rw [found, Option.bind_some, named r link]
  have inside : ∀ entry ∈ spans, ∀ r, PlacedSpan.link? entry = some r → r ≤ spans.length := by
    intro entry mem r link
    obtain ⟨target, there, -⟩ := points entry mem r link
    exact Nat.le_of_lt (List.getElem?_eq_some_iff.mp there).1
  constructor
  · intro follow entry mem within r link
    obtain ⟨index, here⟩ := List.getElem?_of_mem mem
    have named := follow index entry r here within link
    rw [copied index entry r here within link] at named
    exact (PlacedSpan.idAt_eq_self_iff (inside entry mem r link)).mp (Option.some.inj named).symm
  · intro unbroken index entry r here within link
    have mem := List.mem_of_getElem? here
    rw [copied index entry r here within link, (PlacedSpan.idAt_eq_self_iff
      (inside entry mem r link)).mpr (unbroken entry mem within r link)]

/-- With a span dropped behind the other two, the reflexive follows its link. -/
theorem initializeMentions_linksFollow_himself :
    let tokens := [Token.ofWord "Joe" "NNP", Token.ofWord "saw" "VBD", Token.ofWord "himself" "PRP"]
    let doc := ofSentences "" [{ tokens }]
    let rows : List (List MentionSpan) := [[{ start := 0, stop := 1 },
      { start := 2, stop := 3, antecedent? := some 0 }, { start := 1, stop := 9 }]]
    let raw : RawMentions := { predicted := [], gold? := some rows }
    let d := (doc.initializeMentions .default .strict raw).1
    PointWithin (spansOf doc.sentences rows) ∧
      doc.initializeMentions .default .strict raw = (d, .ok 0) ∧
      d.HasGoldOf (spansOf doc.sentences rows) ∧ d.LinksFollow (spansOf doc.sentences rows) := by
  intro tokens doc rows raw d
  have points : PointWithin (spansOf doc.sentences rows) := by decide +kernel
  have outcome : doc.initializeMentions .default .strict raw = (d, .ok 0) := by
    have count : (doc.initializeMentions .default .strict raw).2 = .ok 0 := by decide +kernel
    rw [← count]
  obtain ⟨has, follow⟩ := initializeMentions_linksFollow_iff rfl points outcome
  refine ⟨points, outcome, has, follow.mpr ?_⟩
  decide +kernel

/-- With a span dropped before the other two, the reflexive names itself: its link is one more than the
id of the mention that it points at. -/
theorem initializeMentions_names_itself :
    let tokens := [Token.ofWord "Joe" "NNP", Token.ofWord "saw" "VBD", Token.ofWord "himself" "PRP"]
    let doc := ofSentences "" [{ tokens }]
    let rows : List (List MentionSpan) := [[{ start := 1, stop := 9 }, { start := 0, stop := 1 },
      { start := 2, stop := 3, antecedent? := some 1 }]]
    let raw : RawMentions := { predicted := [], gold? := some rows }
    let d := (doc.initializeMentions .default .strict raw).1
    PointWithin (spansOf doc.sentences rows) ∧
      doc.initializeMentions .default .strict raw = (d, .ok 0) ∧
      (d.goldMentions.find? 1).map Mention.span = some (2, 3) ∧
      (d.goldMentions.find? 1).bind Mention.antecedent? = some 1 ∧
      ¬ d.LinksFollow (spansOf doc.sentences rows) := by
  intro tokens doc rows raw d
  have count : (doc.initializeMentions .default .strict raw).2 = .ok 0 := by decide +kernel
  have outcome : doc.initializeMentions .default .strict raw = (d, .ok 0) := by rw [← count]
  have itself : (d.goldMentions.find? 1).bind Mention.antecedent? = some 1 := by decide +kernel
  refine ⟨by decide +kernel, outcome, by decide +kernel, itself, fun follow => ?_⟩
  have named := follow 2 _ 1 rfl rfl rfl
  rw [show PlacedSpan.idAt (spansOf doc.sentences rows) 2 = 1 from rfl, itself] at named
  exact absurd named (by decide)

end Document

end Discourse
