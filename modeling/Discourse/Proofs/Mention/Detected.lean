import Discourse.Proofs.Mention.Absorption
import Discourse.Proofs.Preparation.Outcome
/-!
# What detection finds

The spans that are found in a sentence have three sources.  The entities come from a scan of the
tags that keeps one run open; what it has found at any place covers all tokens with a tag up to
that run, each once (`EntityCover`).  The phrases of the parse or of the chunks are added to the
entities one by one, and never one that is known or that lies in an entity (`Gathered`).  After
that spans are only taken away.

A phrase of the chunks may go on beyond its sentence, and then no head is found for it; so if
detection comes to an end at all, what it has found is in order (`WellDetected`).
-/

namespace Discourse

namespace Sentence

variable {s : Sentence}

/-! ## Entities -/

section Entities

/-- A run of tokens with one tag that makes a mention, of which the last may be a possessive mark
with any tag instead. -/
def IsEntity (s : Sentence) (span : Nat × Nat) : Prop :=
  span.1 < span.2 ∧ ∃ tag, isMentionTag tag = true ∧ ∀ i, span.1 ≤ i → i < span.2 →
    ∃ t, s.tokens[i]? = some t ∧
      (t.entityTag = tag ∨ span.1 < i ∧ i + 1 = span.2 ∧ t.isPossessive = true)

/-- The entities of a sentence from a place on. -/
structure EntityCover (s : Sentence) (first : Nat) (spans : List (Nat × Nat)) : Prop where
  ordered : spans.Pairwise fun a b => a.2 ≤ b.1
  behind : ∀ span ∈ spans, first ≤ span.1
  entities : ∀ span ∈ spans, s.IsEntity span
  covered : ∀ i t, first ≤ i → s.tokens[i]? = some t → isMentionTag t.entityTag = true →
    ∃ span ∈ spans, span.1 ≤ i ∧ i < span.2

/-- The tokens from `start` up to `stop` have one tag. -/
def Alike (s : Sentence) (tag : String) (start stop : Nat) : Prop :=
  start < stop ∧ ∀ i, start ≤ i → i < stop → ∃ t, s.tokens[i]? = some t ∧ t.entityTag = tag

variable {tag : String} {start stop i : Nat} {t : Token} {spans : List (Nat × Nat)}

theorem alike_singleton (here : s.tokens[i]? = some t) : s.Alike t.entityTag i (i + 1) := by
  refine ⟨Nat.lt_succ_self i, fun j low high => ?_⟩
  obtain rfl : j = i := by omega
  exact ⟨t, here, rfl⟩

theorem Alike.extend (alike : s.Alike tag start i) (here : s.tokens[i]? = some t)
    (same : t.entityTag = tag) : s.Alike tag start (i + 1) := by
  refine ⟨Nat.lt_succ_of_lt alike.1, fun j low high => ?_⟩
  rcases Nat.lt_succ_iff_lt_or_eq.mp high with earlier | rfl
  · exact alike.2 j low earlier
  · exact ⟨t, here, same⟩

theorem Alike.isEntity (alike : s.Alike tag start stop) (makes : isMentionTag tag = true) :
    s.IsEntity (start, stop) := by
  refine ⟨alike.1, tag, makes, fun i low high => ?_⟩
  obtain ⟨t, here, same⟩ := alike.2 i low high
  exact ⟨t, here, .inl same⟩

theorem Alike.isEntity_possessive (alike : s.Alike tag start i) (makes : isMentionTag tag = true)
    (here : s.tokens[i]? = some t) (possessive : t.isPossessive = true) :
    s.IsEntity (start, i + 1) := by
  refine ⟨Nat.lt_succ_of_lt alike.1, tag, makes, fun j low high => ?_⟩
  rcases Nat.lt_succ_iff_lt_or_eq.mp high with earlier | rfl
  · obtain ⟨t, here, same⟩ := alike.2 j low earlier
    exact ⟨t, here, .inl same⟩
  · exact ⟨t, here, .inr ⟨alike.1, rfl, possessive⟩⟩

namespace EntityCover

theorem nil (done : s.length ≤ i) : s.EntityCover i [] where
  ordered := .nil
  behind := fun _ none => nomatch none
  entities := fun _ none => nomatch none
  covered := fun j t behind here _ => by
    have inside : j < s.length := (List.getElem?_eq_some_iff.mp here).1
    omega

theorem cons (entity : s.IsEntity (start, stop)) (rest : s.EntityCover stop spans) :
    s.EntityCover start ((start, stop) :: spans) where
  ordered := List.pairwise_cons.mpr ⟨rest.behind, rest.ordered⟩
  behind := List.forall_mem_cons.mpr ⟨Nat.le_refl start, fun span mem =>
    Nat.le_trans (Nat.le_of_lt entity.1) (rest.behind span mem)⟩
  entities := List.forall_mem_cons.mpr ⟨entity, rest.entities⟩
  covered := fun i t low here makes => by
    by_cases within : i < stop
    · exact ⟨(start, stop), List.mem_cons_self, low, within⟩
    · obtain ⟨span, mem, covers⟩ := rest.covered i t (Nat.le_of_not_lt within) here makes
      exact ⟨span, List.mem_cons_of_mem _ mem, covers⟩

/-- A run whose tag makes no mention is passed over. -/
theorem skip (alike : s.Alike tag start stop) (makes : isMentionTag tag ≠ true)
    (rest : s.EntityCover stop spans) : s.EntityCover start spans where
  ordered := rest.ordered
  behind := fun span mem => Nat.le_trans (Nat.le_of_lt alike.1) (rest.behind span mem)
  entities := rest.entities
  covered := fun i t low here makes' => by
    by_cases within : i < stop
    · obtain ⟨t', here', same⟩ := alike.2 i low within
      cases here.symm.trans here'
      exact absurd (same ▸ makes') makes
    · exact rest.covered i t (Nat.le_of_not_lt within) here makes'

end EntityCover

/-- The scan from a place on, with the run that is open there. -/
theorem entityCover_entitySpansFrom {run? : Option (Nat × String)} {ts : List Token}
    (rest : s.tokens.drop i = ts) (opened : ∀ run ∈ run?, s.Alike run.2 run.1 i) :
    s.EntityCover ((run?.map Prod.fst).getD i) (entitySpansFrom run? i ts) := by
  induction ts generalizing run? i with
  | nil =>
    have done : s.length ≤ i := List.drop_eq_nil_iff.mp rest
    cases run? with
    | none => exact .nil done
    | some run =>
      have alike := opened run rfl
      rw [entitySpansFrom]
      split
      next makes => exact .cons (alike.isEntity makes) (.nil done)
      next makes => exact .skip alike makes (.nil done)
  | cons t ts ih =>
    have here : s.tokens[i]? = some t := by
      rw [← List.head?_drop, rest, List.head?_cons]
    have rest : s.tokens.drop (i + 1) = ts := by
      rw [← List.tail_drop, rest, List.tail_cons]
    have fresh : s.EntityCover i (entitySpansFrom (some (i, t.entityTag)) (i + 1) ts) :=
      @ih (i + 1) (some (i, t.entityTag)) rest fun run same =>
        Option.some.inj same ▸ alike_singleton here
    cases run? with
    | none => exact fresh
    | some run =>
      have alike := opened run rfl
      rw [entitySpansFrom]
      split
      next same =>
        exact ih rest fun run' same' => Option.some.inj same' ▸ alike.extend here same
      next =>
        split
        next makes => exact .skip alike (by simpa using makes) fresh
        next makes =>
          have makes : isMentionTag run.2 = true := by simpa using makes
          split
          next possessive =>
            exact .cons (alike.isEntity_possessive makes here possessive)
              (@ih (i + 1) none rest fun run none => absurd none (Option.not_mem_none run))
          next => exact .cons (alike.isEntity makes) fresh

theorem entityCover_namedEntitySpans (s : Sentence) : s.EntityCover 0 s.namedEntitySpans :=
  @entityCover_entitySpansFrom s 0 none s.tokens List.drop_zero fun run none =>
    absurd none (Option.not_mem_none run)

/-- Entities follow one another, and a token whose tag makes a mention is in one of them. -/
structure EntitiesLaidOut (s : Sentence) : Prop where
  ordered : s.namedEntitySpans.Pairwise fun a b => a.2 ≤ b.1
  entities : ∀ span ∈ s.namedEntitySpans, s.IsEntity span
  once : ∀ i t, s.tokens[i]? = some t → isMentionTag t.entityTag = true →
    s.namedEntitySpans.countP (fun span => span.1 ≤ i ∧ i < span.2) = 1

theorem entitiesLaidOut (s : Sentence) : s.EntitiesLaidOut where
  ordered := s.entityCover_namedEntitySpans.ordered
  entities := s.entityCover_namedEntitySpans.entities
  once := fun i t here makes => by
    obtain ⟨span, mem, covers⟩ :=
      s.entityCover_namedEntitySpans.covered i t (Nat.zero_le i) here makes
    exact countP_eq_one_of_disjoint s.entityCover_namedEntitySpans.ordered mem covers

theorem nodup_namedEntitySpans (s : Sentence) : s.namedEntitySpans.Nodup := by
  refine s.entitiesLaidOut.ordered.imp_of_mem fun {a b} mem _ apart same => ?_
  subst same
  exact Nat.not_lt.mpr apart (s.entitiesLaidOut.entities a mem).1

end Entities

/-! ## Phrases among the entities -/

section Phrases

variable {named found phrases : List (Nat × Nat)} {phrase : Nat × Nat}

/-- What has been found is different, and is an entity or lies in none. -/
structure Gathered (named found : List (Nat × Nat)) : Prop where
  nodup : found.Nodup
  outside : ∀ span ∈ found, span ∈ named ∨ named.any (isInside span) = false

theorem Gathered.addPhrase (gathered : Gathered named found) (phrase : Nat × Nat) :
    Gathered named (addPhrase named found phrase) := by
  rw [Discourse.addPhrase]
  split
  next => exact gathered
  next new =>
    rw [Bool.not_eq_true, Bool.or_eq_false_iff] at new
    obtain ⟨outside, unknown⟩ := new
    have unknown : phrase ∉ found := fun mem => by
      rw [List.contains_iff_mem.mpr mem] at unknown
      cases unknown
    refine ⟨List.nodup_append.mpr ⟨gathered.nodup, List.nodup_singleton phrase, ?_⟩, ?_⟩
    · intro span mem other mem' same
      exact unknown (List.mem_singleton.mp mem' ▸ same ▸ mem)
    · intro span mem
      rcases List.mem_append.mp mem with old | last
      · exact gathered.outside span old
      · exact .inr (List.mem_singleton.mp last ▸ outside)

theorem gathered_foldl_addPhrase (once : named.Nodup) (phrases : List (Nat × Nat)) :
    Gathered named (phrases.foldl (Discourse.addPhrase named) named) :=
  List.foldlRecOn (motive := Gathered named) phrases _ ⟨once, fun _ => .inl⟩
    fun _ gathered phrase _ => gathered.addPhrase phrase

end Phrases

/-! ## Candidates with their heads -/

theorem range_of_withHead {span : Nat × Nat} {candidate : MentionSpan}
    (headed : s.withHead span = .ok candidate) : candidate.range = span := by
  obtain ⟨head, -, same⟩ := bind_eq_ok_iff.mp headed
  cases same
  rfl

theorem headed_of_withHead {candidate : MentionSpan} (holds : s.Holds candidate.range)
    (headed : s.withHead candidate.range = .ok candidate) :
    ∃ head, candidate.head? = some head ∧ candidate.start ≤ head ∧ head < candidate.stop := by
  obtain ⟨head, found, bounds⟩ := exists_findHead holds
  obtain ⟨head', found', same⟩ := bind_eq_ok_iff.mp headed
  cases found.symm.trans found'
  exact ⟨head, (congrArg MentionSpan.head? (Except.ok.inj same)).symm, bounds⟩

/-- A detection that comes to an end has found phrases, has found heads for what it gathered, and
has taken the spurious away. -/
theorem exists_of_detectMentions {spans : List MentionSpan}
    (detected : s.detectMentions = .ok spans) :
    ∃ phrases candidates, s.phraseSpans = .ok phrases ∧
      (phrases.foldl (addPhrase s.namedEntitySpans) s.namedEntitySpans).mapM s.withHead =
        .ok candidates ∧ s.removeSpurious candidates = .ok spans := by
  rw [detectMentions_eq] at detected
  obtain ⟨phrases, found, detected⟩ := bind_eq_ok_iff.mp detected
  obtain ⟨candidates, headed, removed⟩ := bind_eq_ok_iff.mp detected
  refine ⟨phrases, candidates, ?_, headed, removed⟩
  split at found
  next outcome =>
    cases found
    exact outcome
  next => cases found

/-- The mention spans of a sentence are in order. -/
structure WellDetected (s : Sentence) (spans : List MentionSpan) : Prop where
  distinct : (spans.map MentionSpan.range).Nodup
  within : ∀ span ∈ spans, span.start < span.stop ∧ span.stop ≤ s.length
  headed : ∀ span ∈ spans, ∃ head, span.head? = some head ∧ span.start ≤ head ∧ head < span.stop
  affirmed : ∀ span ∈ spans, ∀ first, s.tokens[span.start]? = some first →
    Text.lower first.word ∉ negativeQuantifiers
  outside : ∀ span ∈ spans, span.range ∉ s.namedEntitySpans →
    ∀ entity ∈ s.namedEntitySpans, ¬(entity.1 ≤ span.start ∧ span.stop ≤ entity.2)

/-- What comes out of a detection that comes to an end. -/
theorem wellDetected_of_detectMentions (fits : s.ParseFits) (within : ¬s.Overruns)
    {spans : List MentionSpan} (detected : s.detectMentions = .ok spans) :
    s.WellDetected spans := by
  obtain ⟨phrases, candidates, found, headed, removed⟩ := exists_of_detectMentions detected
  have gathered := gathered_foldl_addPhrase s.nodup_namedEntitySpans phrases
  have holds : ∀ span ∈ phrases.foldl (addPhrase s.namedEntitySpans) s.namedEntitySpans,
      s.Holds span := by
    intro span mem
    rcases mem_foldl_addPhrase_cases mem with entity | phrase
    · exact holds_of_mem_namedEntitySpans entity
    · exact holds_of_mem_phraseSpans fits within found span phrase
  generalize phrases.foldl (addPhrase s.namedEntitySpans) s.namedEntitySpans = gathering at *
  have ranges : gathering = candidates.map MentionSpan.range := by
    rw [← map_eq_of_mapM_eq_ok headed fun _ _ headed => (range_of_withHead headed).symm]
    exact (List.map_id' gathering).symm
  have bounds : ∀ span ∈ candidates, s.Holds span.range ∧
      ∃ head, span.head? = some head ∧ span.start ≤ head ∧ head < span.stop := by
    intro span mem
    obtain ⟨stretch, listed, headed⟩ := exists_mem_of_mapM_eq_ok headed mem
    obtain rfl := range_of_withHead headed
    exact ⟨holds _ listed, headed_of_withHead (holds _ listed) headed⟩
  have distinct : (candidates.map MentionSpan.range).Nodup := ranges ▸ gathered.nodup
  have kept := removeSpurious_eq
    (fun span mem => ⟨Nat.lt_of_lt_of_le (bounds span mem).1.1 (bounds span mem).1.2,
      (bounds span mem).1.2⟩) distinct
  cases kept.symm.trans removed
  have listed : ∀ span ∈ candidates.filter fun span => s.Stands candidates span,
      span ∈ candidates ∧ s.Stands candidates span := fun span mem =>
    ⟨List.mem_of_mem_filter mem, of_decide_eq_true (List.mem_filter.mp mem).2⟩
  refine ⟨distinct.sublist (List.filter_sublist.map _), ?_, ?_, ?_, ?_⟩
  · exact fun span mem => (bounds span (listed span mem).1).1
  · exact fun span mem => (bounds span (listed span mem).1).2
  · intro span mem first here denies
    exact (listed span mem).2.1 (.inl ⟨first, here, denies⟩)
  · intro span mem phrase entity listed' inside
    have place : span.range ∈ gathering := ranges ▸ List.mem_map_of_mem (listed span mem).1
    rcases gathered.outside _ place with known | apart
    · exact phrase known
    · refine List.any_eq_false.mp apart entity listed' ?_
      rw [isInside, Bool.and_eq_true, decide_eq_true_iff, decide_eq_true_iff]
      exact inside

end Sentence

namespace Document

variable {doc : Document}

/-- The entities of every sentence follow one another and cover what is tagged; detection comes to
an end exactly if the chunk tags that it needs are legal; and what it finds is in order. -/
theorem detectMentions_wellDetected (fit : doc.ParsesFit) (tagged : doc.TagsFit) :
    (∀ s ∈ doc.sentences, s.EntitiesLaidOut) ∧
      ((∃ rows, doc.detectMentions = .ok rows) ↔ ∀ s ∈ doc.sentences, ¬s.Mistagged) ∧
      ∀ rows, doc.detectMentions = .ok rows →
        List.Forall₂ Sentence.WellDetected doc.sentences rows := by
  refine ⟨fun s _ => s.entitiesLaidOut, ⟨?_, ?_⟩, ?_⟩
  · rintro ⟨rows, detected⟩ s mem ⟨unparsed, illegal⟩
    obtain ⟨i, tag, first⟩ := exists_firstIllegal illegal
    have outcome := List.mem_map_of_mem (f := Sentence.detectMentions) mem
    rw [mapM_eq_ok_iff.mp detected,
      Sentence.detectMentions_of_firstIllegal unparsed first] at outcome
    obtain ⟨row, -, same⟩ := List.mem_map.mp outcome
    cases same
  · intro legal
    exact exists_mapM fun s mem => by
      obtain ⟨spans, detected, -⟩ :=
        s.exists_detectMentions (fit s mem) (legal s mem) (tagged.not_overruns mem)
      exact ⟨spans, detected⟩
  · intro rows detected
    refine List.forall₂_iff_zip.mpr ⟨(length_of_mapM_eq_ok detected).symm, fun {s row} mem => ?_⟩
    have listed := (List.of_mem_zip mem).1
    exact Sentence.wellDetected_of_detectMentions (fit s listed) (tagged.not_overruns listed)
      (eq_ok_of_mem_zip detected mem)

/-- A possessive mark with a tag of its own belongs to the entity before it, and the noun phrase
around both is a mention beside it; a second sentence has chunks only, one of them denied. -/
theorem detectMentions_wellDetected_possessive :
    let cat : Row := .phrase "NN" (.word "cat" .done) .done
    let ann : Row := .phrase "NNP" (.word "Ann" .done) (.phrase "POS" (.word "'s" .done) .done)
    let first : Sentence :=
      { tokens := [{ Token.ofWord "Ann" "NNP" with ner := "PERSON" },
          { Token.ofWord "'s" "POS" with ner := "ORGANIZATION" }, .ofWord "cat" "NN"]
        parse? := some ⟨"ROOT", .phrase "NP" (.phrase "NP" ann cat) .done⟩ }
    let second : Sentence :=
      { tokens := [.ofWord "nothing" "NN", .ofWord "scared" "VBD", .ofWord "it" "PRP"]
        chunkTags := ["B-NP", "B-VP", "B-NP"] }
    let doc := ofSentences "" [first, second]
    let rows : List (List MentionSpan) :=
      [[{ start := 0, stop := 2, head? := some 1 }, { start := 0, stop := 3, head? := some 2 }],
        [{ start := 2, stop := 3, head? := some 2 }]]
    doc.ParsesFit ∧ doc.TagsFit ∧ first.namedEntitySpans = [(0, 2)] ∧
      doc.detectMentions = .ok rows ∧ first.EntitiesLaidOut ∧
      List.Forall₂ Sentence.WellDetected [first, second] rows := by
  intro cat ann first second doc rows
  have parses : doc.ParsesFit := by
    intro s mem tree parse
    rcases List.mem_pair.mp mem with rfl | rfl
    · cases parse
      rfl
    · cases parse
  have tags : doc.TagsFit := by
    intro s mem unparsed
    rcases List.mem_pair.mp mem with rfl | rfl
    · cases unparsed
    · exact Nat.le_refl 3
  have detected : doc.detectMentions = .ok rows := by decide +kernel
  have wellDetected := detectMentions_wellDetected parses tags
  exact ⟨parses, tags, by decide, detected, wellDetected.1 first List.mem_cons_self,
    wellDetected.2.2 rows detected⟩

end Document

end Discourse
