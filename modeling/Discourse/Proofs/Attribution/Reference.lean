import Discourse.Proofs.Address
import Discourse.Proofs.Report.Consistency
import Mathlib.Data.List.Forall2
/-!
# Whom a quotation refers to

The mention of a quotation names an entity in one of three ways: an entity mention covers its first
token, or one is at the head of another mention in the cluster of the mention that it has as a head,
or at the head of a speaker of that mention (`Document.Names`).  From there it is one more step to
the canonical mention of the entity, at a place of the list that nobody has checked
(`Document.IsCanonicalFor`).

The last pass of an attribution copies the text and the range of that entity mention and does
nothing else (`canonicalize_copies`).  None of what it looks at is changed by it, so that it may be
repeated.
-/

namespace Discourse

/-- The text of an entity mention with its range. -/
def EntityMention.span (e : EntityMention) : TokenSpan := ⟨e.text, e.tokenBegin, e.tokenEnd⟩

namespace Document

variable {doc : Document} {start stop token place : Nat} {id : MentionId} {q : Quotation}
  {e : EntityMention}

/-! ## From a range of tokens to an entity mention -/

/-- A predicted mention is headed at the token with a given number. -/
def HeadsAt (doc : Document) (token : Nat) (id : MentionId) : Prop :=
  ∃ i j, doc.IsAddress i j token ∧ doc.headed.find? (i, j) = some id

/-- The mention is headed at the first token of a range that heads one. -/
def IsFirstHeaded (doc : Document) (start stop : Nat) (id : MentionId) : Prop :=
  ∃ token, start ≤ token ∧ token < stop ∧ doc.HeadsAt token id ∧
    ∀ earlier other, start ≤ earlier → earlier < token → ¬doc.HeadsAt earlier other

/-- The other mentions in the cluster of a mention. -/
def clusterMates (doc : Document) (id : MentionId) : List MentionId :=
  (((doc.clusterOf? id).map doc.membersOf).getD []).filter (· != id)

/-- The first of a row of mentions with an entity mention at the head has the one at a place. -/
def LeadsTo (doc : Document) (ids : List MentionId) (place : Nat) : Prop :=
  ∃ before id after, ids = before ++ id :: after ∧ doc.entityOfMention? id = some place ∧
    ∀ other ∈ before, doc.entityOfMention? other = none

/-- The tokens of a range name the entity mention at a place. -/
inductive Names (doc : Document) (start stop place : Nat) : Prop
  | token : doc.entityAt? start = some place → Names doc start stop place
  | cluster {id : MentionId} : doc.entityAt? start = none → doc.IsFirstHeaded start stop id →
      doc.LeadsTo (doc.clusterMates id) place → Names doc start stop place
  | speaker {id : MentionId} : doc.entityAt? start = none → doc.IsFirstHeaded start stop id →
      (∀ mate ∈ doc.clusterMates id, doc.entityOfMention? mate = none) →
      doc.LeadsTo (doc.speakersOf id) place → Names doc start stop place

theorem headsAt_iff :
    (doc.locate? token).bind doc.headed.find? = some id ↔ doc.HeadsAt token id := by
  simp only [Option.bind_eq_some_iff, HeadsAt, Prod.exists, locate?_eq_some_iff]

theorem headedWithin?_eq_some_iff :
    doc.headedWithin? start stop = some id ↔ doc.IsFirstHeaded start stop id := by
  rw [headedWithin?, List.findSome?_eq_some_iff]
  constructor
  · rintro ⟨before, token, after, split, heads, none⟩
    obtain ⟨k, inside, rfl, rest⟩ := List.range'_eq_append_iff.mp split
    rw [Nat.mul_one, eq_comm, List.range'_eq_cons_iff] at rest
    obtain ⟨rfl, left, -⟩ := rest
    refine ⟨start + k, by omega, by omega, headsAt_iff.mp heads, fun earlier other from_ to_ => ?_⟩
    intro heads'
    have silent := none earlier (List.mem_range'_1.mpr ⟨from_, to_⟩)
    rw [headsAt_iff.mpr heads'] at silent
    cases silent
  · rintro ⟨token, from_, to_, heads, first⟩
    have inside : token < doc.tokenCount := by
      obtain ⟨i, j, address, -⟩ := heads
      exact address.lt_tokenCount
    refine ⟨List.range' start (token - start), token,
      List.range' (token + 1) (min stop doc.tokenCount - token - 1), ?_, headsAt_iff.mpr heads, ?_⟩
    · rw [← List.range'_succ, List.range'_eq_append_iff]
      refine ⟨token - start, by omega, rfl, ?_⟩
      congr 1 <;> omega
    · intro earlier mem
      obtain ⟨from', to'⟩ := List.mem_range'_1.mp mem
      cases found : (doc.locate? earlier).bind doc.headed.find? with
      | none => rfl
      | some other => exact absurd (headsAt_iff.mp found) (first earlier other from' (by omega))

/-- The entity mention that is found for a range of tokens is the one that these name. -/
theorem entityOfSpan?_eq_some_iff :
    doc.entityOfSpan? start stop = some place ↔ doc.Names start stop place := by
  have led (ids : List MentionId) :
      ids.findSome? doc.entityOfMention? = some place ↔ doc.LeadsTo ids place :=
    List.findSome?_eq_some_iff
  have linked (id : MentionId) :
      doc.linkedMentions id = doc.clusterMates id ++ doc.speakersOf id := rfl
  rw [entityOfSpan?, Option.orElse_eq_orElse, Option.orElse_eq_or, Option.or_eq_some_iff,
    Option.bind_eq_some_iff]
  simp only [headedWithin?_eq_some_iff, linked, List.findSome?_append, Option.or_eq_some_iff, led,
    List.findSome?_eq_none_iff]
  constructor
  · rintro (token | ⟨none, id, first, mate | ⟨noMate, speaker⟩⟩)
    · exact .token token
    · exact .cluster none first mate
    · exact .speaker none first noMate speaker
  · rintro (token | ⟨none, first, mate⟩ | ⟨none, first, noMate, speaker⟩)
    · exact .inl token
    · exact .inr ⟨none, _, first, .inl mate⟩
    · exact .inr ⟨none, _, first, .inr ⟨noMate, speaker⟩⟩

/-! ## From there to the canonical mention -/

/-- The mention of a quotation names an entity mention that has `e` as its canonical mention, or
that is `e` and has none. -/
def IsCanonicalFor (doc : Document) (q : Quotation) (e : EntityMention) : Prop :=
  ∃ m place own, q.mention? = some m ∧ doc.Names m.tokenBegin m.tokenEnd place ∧
    doc.entities[place]? = some own ∧ doc.entities[own.canonical?.getD place]? = some e

theorem IsCanonicalFor.mem (refers : doc.IsCanonicalFor q e) : e ∈ doc.entities := by
  obtain ⟨m, place, own, -, -, -, here⟩ := refers
  exact List.mem_of_getElem? here

/-- The entity mention that a quotation refers to. -/
def reference? (doc : Document) (q : Quotation) : Option EntityMention :=
  (q.mention?.bind fun m => doc.entityOfSpan? m.tokenBegin m.tokenEnd).bind fun place =>
    (doc.entities[place]?).bind fun own => doc.entities[own.canonical?.getD place]?

theorem reference?_eq_some_iff : doc.reference? q = some e ↔ doc.IsCanonicalFor q e := by
  simp only [reference?, Option.bind_eq_some_iff, entityOfSpan?_eq_some_iff]
  constructor
  · rintro ⟨place, ⟨m, given, names⟩, own, here, there⟩
    exact ⟨m, place, own, given, names, here, there⟩
  · rintro ⟨m, place, own, given, names, here, there⟩
    exact ⟨place, ⟨m, given, names⟩, own, here, there⟩

theorem reference?_isSome_iff : (doc.reference? q).isSome ↔ ∃ e, doc.IsCanonicalFor q e := by
  simp only [Option.isSome_iff_exists, reference?_eq_some_iff]

instance (doc : Document) (q : Quotation) : Decidable (∃ e, doc.IsCanonicalFor q e) :=
  decidable_of_iff ((doc.reference? q).isSome) reference?_isSome_iff

theorem EntitiesInRange.canonicalFor_eq (inRange : doc.EntitiesInRange) (q : Quotation) :
    doc.canonicalFor q = .ok ((doc.reference? q).map EntityMention.span) := by
  rw [canonicalFor, reference?]
  cases found : q.mention?.bind fun m => doc.entityOfSpan? m.tokenBegin m.tokenEnd with
  | none => rfl
  | some place =>
    obtain ⟨m, -, span⟩ := Option.bind_eq_some_iff.mp found
    have here := List.getElem?_eq_getElem (inRange.entityOfSpan? span)
    show doc.canonicalOf place = _
    rw [Option.bind_some, here, Option.bind_some, canonicalOf, here]
    rfl

/-! ## The pass -/

/-- The quotation `q'` that the last pass makes of the quotation `q`. -/
structure Copied (doc : Document) (q q' : Quotation) : Prop where
  /-- Nothing but the canonical mention is written. -/
  rest : { q' with canonical? := q.canonical? } = q
  written (e : EntityMention) : doc.IsCanonicalFor q e → q'.canonical? = some e.span
  kept : (¬∃ e, doc.IsCanonicalFor q e) → q' = q
  /-- What is written is found in the list of entity mentions. -/
  listed : q' = q ∨ ∃ e ∈ doc.entities, q'.canonical? = some e.span
  unmentioned : q.mention? = none → q' = q

theorem copied_refer (doc : Document) (q : Quotation) :
    doc.Copied q (q.refer ((doc.reference? q).map EntityMention.span)) := by
  have kept (nothing : doc.reference? q = none) :
      q.refer ((doc.reference? q).map EntityMention.span) = q := by
    rw [nothing]
    rfl
  have written (e : EntityMention) (found : doc.reference? q = some e) :
      (q.refer ((doc.reference? q).map EntityMention.span)).canonical? = some e.span := by
    rw [found]
    rfl
  refine ⟨rfl, fun e refers => written e (reference?_eq_some_iff.mpr refers), fun none => ?_, ?_,
    fun unmentioned => kept ?_⟩
  · refine kept (Option.not_isSome_iff_eq_none.mp fun found => none ?_)
    exact reference?_isSome_iff.mp found
  · cases found : doc.reference? q with
    | none => exact .inl rfl
    | some e => exact .inr ⟨e, (reference?_eq_some_iff.mp found).mem, rfl⟩
  · rw [reference?, unmentioned]
    rfl

/-- The document with every quotation referred to the entity mention of its mention. -/
def referred (doc : Document) : Document :=
  doc.withQuotes (doc.quotes.map fun q => q.refer ((doc.reference? q).map EntityMention.span))

/-- The number of quotations that refer to an entity mention. -/
def referring (doc : Document) : Nat := doc.quotes.countP fun q => ∃ e, doc.IsCanonicalFor q e

theorem EntitiesInRange.canonicalize_eq (inRange : doc.EntitiesInRange) :
    doc.canonicalize = .ok (doc.referred, doc.referring) := by
  have each : doc.quotes.mapM doc.canonicalFor =
      .ok (doc.quotes.map fun q => (doc.reference? q).map EntityMention.span) := by
    rw [mapM_eq_ok_iff, List.map_map]
    exact List.map_congr_left fun q _ => inRange.canonicalFor_eq q
  have succeeds : ∃ quotes count, doc.canonicalize = .ok (doc.withQuotes quotes, count) := by
    rw [canonicalize, each]
    exact ⟨_, _, rfl⟩
  obtain ⟨quotes, count, outcome⟩ := succeeds
  obtain ⟨found, passes, set, counted⟩ := exists_found_of_canonicalize outcome
  obtain rfl := Except.ok.inj (passes.symm.trans each)
  have pairs : doc.quotes.zip (doc.quotes.map fun q => (doc.reference? q).map EntityMention.span) =
      doc.quotes.map fun q => (q, (doc.reference? q).map EntityMention.span) := by
    rw [← List.zip_map', List.map_id']
  rw [pairs, List.map_map] at set
  rw [outcome, show quotes = _ from set, counted, referred, referring, List.countP_map]
  refine congrArg (fun count => Except.ok (_, count)) (List.countP_congr fun q _ => ?_)
  rw [Function.comp_apply, Option.isSome_map, decide_eq_true_iff, reference?_isSome_iff]

/-- What the pass goes by is not written by it. -/
theorem reference?_referred (doc : Document) (q : Quotation) (span? : Option TokenSpan) :
    doc.referred.reference? (q.refer span?) = doc.reference? q := rfl

theorem referred_referred (doc : Document) : doc.referred.referred = doc.referred := by
  have twice (q : Quotation) (span? : Option TokenSpan) :
      (q.refer span?).refer span? = q.refer span? := by
    rw [Quotation.refer, Quotation.refer]
    simp only [← Option.or_assoc, Option.or_self]
  refine congrArg doc.withQuotes (List.map_map.trans (List.map_congr_left fun q _ => ?_))
  rw [Function.comp_apply, reference?_referred, twice]

theorem referring_referred (doc : Document) : doc.referred.referring = doc.referring := by
  refine List.countP_map.trans (List.countP_congr fun q _ => ?_)
  rw [Function.comp_apply, decide_eq_true_iff, decide_eq_true_iff, ← reference?_isSome_iff,
    ← reference?_isSome_iff, reference?_referred]

/-- The last pass only copies.  Where no token points beyond the list of entity mentions it
succeeds, and each quotation with a canonical entity mention gets the text and the range of this
mention, all at once; nothing else changes.  The pass counts these quotations, and a second one
leaves everything as it is and counts the same. -/
theorem canonicalize_copies (inRange : doc.EntitiesInRange) :
    ∃ final,
      doc.canonicalize = .ok (final, doc.quotes.countP fun q => ∃ e, doc.IsCanonicalFor q e) ∧
      final = { doc with quotes := final.quotes } ∧
      List.Forall₂ doc.Copied doc.quotes final.quotes ∧
      final.canonicalize = .ok (final, doc.quotes.countP fun q => ∃ e, doc.IsCanonicalFor q e) := by
  refine ⟨doc.referred, inRange.canonicalize_eq, rfl, ?_, ?_⟩
  · refine List.forall₂_map_right_iff.mpr (List.forall₂_same.mpr fun q _ => ?_)
    exact doc.copied_refer q
  · have again : doc.referred.EntitiesInRange := inRange
    rw [again.canonicalize_eq, referred_referred, referring_referred]
    rfl

/-- A pronoun in a cluster with a name gets the full name; a name whose canonical mention points
beyond the list gets none, as does a quotation without a mention. -/
theorem canonicalize_copies_pronoun :
    let word := fun (word pos : String) (entity? : Option Nat) =>
      { Token.ofWord word pos with entity? }
    let tokens := [word "Joe" "NNP" (some 0), word "he" "PRP" none, word "Joe" "NNP" (some 1),
      word "Bell" "NNP" (some 1), word "Ann" "NNP" (some 2)]
    let mention := fun (id head : Nat) =>
      ({ id, sentence := 0, start := head, stop := head + 1, head, cluster? := some 0 } : Mention)
    let quote := fun (index : Nat) (mention? : Option QuoteMention) =>
      ({ (default : Quotation) with index, mention? } : Quotation)
    let doc := { ofSentences "" [{ tokens }] with
      mentions := Table.ofList [(0, mention 0 0), (1, mention 1 1)]
      headed := Table.ofList [((0, 0), 0), ((0, 1), 1)]
      clusters := Table.ofList [(0, (KeySet.insertAll {} [0, 1]))]
      entities := [⟨"Joe", 0, 0, 1, "PERSON", some 1⟩, ⟨"Joe Bell", 0, 2, 4, "PERSON", none⟩,
        ⟨"Ann", 0, 4, 5, "PERSON", some 9⟩]
      quotes := [quote 0 (some ⟨⟨"he", 1, 2, .pronoun⟩, "trigram"⟩),
        quote 1 (some ⟨⟨"Ann", 4, 5, .name⟩, "trigram"⟩), quote 2 none] }
    doc.EntitiesInRange ∧ ∃ final, doc.canonicalize = .ok (final, 1) ∧
      final.canonicalize = .ok (final, 1) ∧ List.Forall₂ doc.Copied doc.quotes final.quotes ∧
      final.quotes.map Quotation.canonical? = [some ⟨"Joe Bell", 2, 4⟩, none, none] := by
  intro word tokens mention quote doc
  have inRange : doc.EntitiesInRange := by decide
  have one : (doc.quotes.countP fun q => ∃ e, doc.IsCanonicalFor q e) = 1 := by decide +kernel
  obtain ⟨final, pass, -, copied, again⟩ := canonicalize_copies inRange
  rw [one] at pass again
  have found : (doc.canonicalize.map fun result => result.1.quotes.map Quotation.canonical?) =
      .ok [some ⟨"Joe Bell", 2, 4⟩, none, none] := by
    decide +kernel
  rw [pass] at found
  exact ⟨inRange, final, pass, again, copied, Except.ok.inj found⟩

end Document

end Discourse
