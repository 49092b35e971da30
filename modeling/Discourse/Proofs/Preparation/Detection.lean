import Discourse.Mention.Detection
import Discourse.Proofs.Chunk.Legality
import Discourse.Proofs.FirstFailure
import Discourse.Proofs.Tree.Leaves
import Mathlib.Data.List.Basic
/-!
# Detection on checked sentences

The entity tags of a sentence never lead beyond its tokens, nor does a parse with one leaf for every
token; and a span within the sentence has a head in the span (`exists_findHead`).  So there are two
ways for the detection to stop, both in a sentence without a parse (`detectMentions_eq_error_iff`).
Its chunk tags are not legal; or they are, and a noun phrase goes on where the tokens have ended.
Otherwise the spans found lie within the sentence and have their heads in it.
-/

namespace Discourse

namespace Sentence

variable {s : Sentence}

/-- Whether a span has a token and lies within a sentence. -/
def Holds (s : Sentence) (span : Nat × Nat) : Prop := span.1 < span.2 ∧ span.2 ≤ s.length

/-- Whether the parse of a sentence, if there is one, has a leaf for every token and no more. -/
def ParseFits (s : Sentence) : Prop := ∀ tree, s.parse? = some tree → tree.leafCount = s.length

/-- Whether the chunk tags of a sentence are needed and are not legal. -/
def Mistagged (s : Sentence) : Prop := s.parse? = none ∧ ¬LegalTags s.chunkTags

/-- Whether the chunk tags of a sentence are needed and have a noun phrase that goes on beyond the
tokens. -/
structure Overruns (s : Sentence) : Prop where
  unparsed : s.parse? = none
  legal : LegalTags s.chunkTags
  beyond : ∃ i, s.length ≤ i ∧ phraseAt? s.chunkTags i = some "NP"

/-! ## Heads -/

theorem lt_of_lastIndexWhere? {α : Type} {p : α → Bool} {xs : List α} {i : Nat}
    (found : lastIndexWhere? p xs = some i) : i < xs.length := by
  obtain ⟨j, back, rfl⟩ := Option.map_eq_some_iff.mp found
  obtain ⟨inside, -⟩ := List.findIdx?_eq_some_iff_getElem.mp back
  rw [List.length_reverse] at inside
  omega

theorem headByTag_bounds {start stop : Nat} (holds : s.Holds (start, stop)) :
    start ≤ s.headByTag start stop ∧ s.headByTag start stop < stop := by
  obtain ⟨nonempty, within⟩ := holds
  dsimp only at nonempty within
  rw [Sentence.length] at within
  rw [headByTag]
  split
  next i found =>
    have inside := lt_of_lastIndexWhere? found
    rw [List.length_drop, List.length_take] at inside
    omega
  next => omega

theorem headByParse?_bounds {start stop head : Nat} (found : s.headByParse? start stop = some head) :
    start ≤ head ∧ head < stop := by
  unfold headByParse? at found
  obtain ⟨tree, -, found⟩ := Option.bind_eq_some_iff.mp found
  obtain ⟨node, -, found⟩ := Option.bind_eq_some_iff.mp found
  obtain ⟨headNode, -, found⟩ := Option.bind_eq_some_iff.mp found
  obtain ⟨leaf, -, found⟩ := Option.bind_eq_some_iff.mp found
  split at found
  next between =>
    cases found
    exact between
  next => cases found

/-- A span within its sentence has a head, and that is a token of the span. -/
theorem exists_findHead {start stop : Nat} (holds : s.Holds (start, stop)) :
    ∃ head, s.findHead start stop = .ok head ∧ start ≤ head ∧ head < stop := by
  rw [findHead]
  split
  next head found => exact ⟨head, rfl, headByParse?_bounds found⟩
  next =>
    rw [if_pos ⟨Nat.le_of_lt holds.1, holds.2⟩]
    exact ⟨_, rfl, headByTag_bounds holds⟩

/-- Without a parse there is no head beyond the tokens. -/
theorem findHead_of_beyond {start stop : Nat} (unparsed : s.parse? = none)
    (beyond : s.length < stop) : s.findHead start stop = .error .outOfRange := by
  have treeless : s.headByParse? start stop = none := by
    rw [headByParse?, unparsed]
    rfl
  rw [findHead, treeless]
  refine if_neg fun inside => ?_
  omega

/-- Nothing but a span out of range keeps a head from being found. -/
theorem findHead_eq_error {start stop : Nat} {e : Stop} (fails : s.findHead start stop = .error e) :
    e = .outOfRange := by
  rw [findHead] at fails
  split at fails
  · cases fails
  · split at fails
    · cases fails
    · cases fails
      rfl

/-! ## Entities -/

theorem entitySpansFrom_bounds {run? : Option (Nat × String)} {i : Nat} {ts : List Token}
    {span : Nat × Nat} (open? : ∀ start ∈ run?.map Prod.fst, start < i)
    (mem : span ∈ entitySpansFrom run? i ts) : span.1 < span.2 ∧ span.2 ≤ i + ts.length := by
  induction ts generalizing run? i with
  | nil =>
    cases run? with
    | none => cases mem
    | some run =>
      have before : run.1 < i := open? run.1 rfl
      rw [entitySpansFrom] at mem
      split at mem
      · obtain rfl := List.mem_singleton.mp mem
        exact ⟨before, Nat.le_refl i⟩
      · cases mem
  | cons t rest ih =>
    rw [List.length_cons]
    cases run? with
    | none =>
      have later := ih (by simp) mem
      omega
    | some run =>
      have before : run.1 < i := open? run.1 rfl
      rw [entitySpansFrom] at mem
      split at mem
      · have later := ih (by simp; omega) mem
        omega
      · split at mem
        · have later := ih (by simp) mem
          omega
        · split at mem
          · rcases List.mem_cons.mp mem with rfl | others
            · show run.1 < i + 1 ∧ i + 1 ≤ i + (rest.length + 1)
              omega
            · have later := ih (by simp) others
              omega
          · rcases List.mem_cons.mp mem with rfl | others
            · show run.1 < i ∧ i ≤ i + (rest.length + 1)
              omega
            · have later := ih (by simp) others
              omega

theorem holds_of_mem_namedEntitySpans {span : Nat × Nat} (mem : span ∈ s.namedEntitySpans) :
    s.Holds span := by
  have bounds := entitySpansFrom_bounds (by simp) mem
  rw [Nat.zero_add] at bounds
  exact bounds

/-! ## Phrases -/

theorem holds_of_mem_nounSpans {tree : ParseTree} (fits : tree.leafCount = s.length)
    {span : Nat × Nat} (mem : span ∈ tree.nounSpans) : s.Holds span := by
  obtain ⟨covered, nonempty⟩ := List.mem_filter.mp mem
  obtain ⟨node, listed, rfl⟩ := List.mem_map.mp covered
  have bound := ParseTree.span_le_of_mem_nodes (List.mem_of_mem_filter listed)
  refine ⟨?_, fits ▸ bound⟩
  exact decide_eq_true_iff.mp nonempty

theorem phraseSpans_of_unparsed (unparsed : s.parse? = none) :
    s.phraseSpans = (decodeChunks s.chunkTags).map fun chunks =>
      (chunks.filter fun c => c.label? == some "NP").map fun c => (c.start, c.stop) := by
  rw [phraseSpans, unparsed]

theorem phraseSpans_eq_error_iff {fault : Fault} : s.phraseSpans = .error fault ↔
    s.parse? = none ∧ ∃ i tag, fault = .illegalChunkTag i tag ∧ FirstIllegal s.chunkTags i tag := by
  cases parse : s.parse? with
  | some tree =>
    rw [phraseSpans, parse]
    simp
  | none =>
    rw [phraseSpans_of_unparsed parse, map_eq_error_iff, decodeChunks_eq_error_iff]
    simp

/-- The phrases lie within the sentence, unless one overruns it. -/
theorem holds_of_mem_phraseSpans (fits : s.ParseFits) (within : ¬s.Overruns)
    {phrases : List (Nat × Nat)} (found : s.phraseSpans = .ok phrases) :
    ∀ span ∈ phrases, s.Holds span := by
  intro span mem
  cases parse : s.parse? with
  | some tree =>
    rw [phraseSpans, parse] at found
    cases found
    exact holds_of_mem_nounSpans (fits tree parse) mem
  | none =>
    rw [phraseSpans_of_unparsed parse] at found
    obtain ⟨chunks, read, rfl⟩ := map_eq_ok_iff.mp found
    obtain ⟨c, chosen, rfl⟩ := List.mem_map.mp mem
    obtain ⟨listed, noun⟩ := List.mem_filter.mp chosen
    obtain ⟨legal, decoded⟩ := decodeChunks_ok read
    have listed := List.mem_reverse.mpr listed
    have nonempty := (decoded.bounds c listed).1
    refine ⟨nonempty, Nat.le_of_not_lt fun beyond => within ⟨parse, legal, c.stop - 1, ?_, ?_⟩⟩
    · exact Nat.le_sub_one_of_lt beyond
    · rw [decoded.labels c listed _ (by omega) (by omega)]
      exact beq_iff_eq.mp noun

/-- A noun phrase that goes on beyond the tokens is among the phrases. -/
theorem Overruns.exists_mem_phraseSpans (overruns : s.Overruns) :
    ∃ phrases, s.phraseSpans = .ok phrases ∧ ∃ span ∈ phrases, s.length < span.2 := by
  obtain ⟨chunks, read⟩ := exists_decodeChunks_iff.mpr overruns.legal
  obtain ⟨-, decoded⟩ := decodeChunks_ok read
  obtain ⟨i, beyond, noun⟩ := overruns.beyond
  have tagged : i < s.chunkTags.length := by
    obtain ⟨tag, there, -⟩ := Option.bind_eq_some_iff.mp noun
    obtain ⟨text, there, -⟩ := Option.bind_eq_some_iff.mp there
    exact (List.getElem?_eq_some_iff.mp there).1
  obtain ⟨c, listed, from_, to_⟩ := decoded.covered i tagged
  have label := (decoded.labels c listed i from_ to_).symm.trans noun
  refine ⟨_, by rw [phraseSpans_of_unparsed overruns.unparsed, read]; rfl, (c.start, c.stop), ?_,
    Nat.lt_of_le_of_lt beyond to_⟩
  refine List.mem_map_of_mem (List.mem_filter.mpr ⟨List.mem_reverse.mp listed, ?_⟩)
  exact beq_iff_eq.mpr label

end Sentence

/-! ## Candidates -/

section Candidates

variable {named found phrases : List (Nat × Nat)} {span phrase : Nat × Nat}

theorem mem_addPhrase_cases (mem : span ∈ addPhrase named found phrase) :
    span ∈ found ∨ span = phrase := by
  rw [addPhrase] at mem
  split at mem
  · exact .inl mem
  · rcases List.mem_append.mp mem with old | new
    · exact .inl old
    · exact .inr (List.mem_singleton.mp new)

theorem mem_addPhrase (mem : span ∈ found) : span ∈ addPhrase named found phrase := by
  rw [addPhrase]
  split
  · exact mem
  · exact List.mem_append_left _ mem

theorem mem_addPhrase_self (outside : named.any (isInside phrase) = false) :
    phrase ∈ addPhrase named found phrase := by
  rw [addPhrase]
  split
  next known =>
    rw [outside, Bool.false_or, List.contains_iff_mem] at known
    exact known
  next => exact List.mem_append_right _ List.mem_cons_self

theorem mem_foldl_addPhrase_cases (mem : span ∈ phrases.foldl (addPhrase named) named) :
    span ∈ named ∨ span ∈ phrases := by
  refine List.foldlRecOn (motive := fun found => ∀ span ∈ found, span ∈ named ∨ span ∈ phrases)
    phrases _ (fun _ => .inl) ?_ span mem
  intro found all phrase listed span mem
  rcases mem_addPhrase_cases mem with old | rfl
  · exact all span old
  · exact .inr listed

/-- A phrase that lies in no entity becomes a candidate. -/
theorem mem_foldl_addPhrase (listed : phrase ∈ phrases)
    (outside : named.any (isInside phrase) = false) :
    phrase ∈ phrases.foldl (addPhrase named) named := by
  obtain ⟨before, after, rfl⟩ := List.append_of_mem listed
  rw [List.foldl_append, List.foldl_cons]
  refine List.foldlRecOn (motive := fun found => phrase ∈ found) after _
    (mem_addPhrase_self outside) ?_
  intro found mem _ _
  exact mem_addPhrase mem

end Candidates

namespace Sentence

variable {s : Sentence}

/-- A span to become a mention of a sentence, with its head. -/
structure Fits (s : Sentence) (span : MentionSpan) : Prop where
  within : span.isWithin s = true
  headed : ∃ head, span.head? = some head ∧ head < s.length

theorem exists_withHead {span : Nat × Nat} (holds : s.Holds span) :
    ∃ candidate, s.withHead span = .ok candidate ∧ s.Fits candidate := by
  obtain ⟨head, found, -, before⟩ := exists_findHead holds
  refine ⟨⟨span.1, span.2, some head, none, none, none⟩, ?_, ?_, head, rfl, ?_⟩
  · rw [withHead, found]
    rfl
  · rw [MentionSpan.isWithin, Bool.and_eq_true, decide_eq_true_iff, decide_eq_true_iff]
    exact holds
  · exact Nat.lt_of_lt_of_le before holds.2

theorem withHead_eq_error {span : Nat × Nat} {e : Stop} (fails : s.withHead span = .error e) :
    e = .outOfRange :=
  findHead_eq_error (map_eq_error_iff (f := fun head =>
    ({ start := span.1, stop := span.2, head? := some head } : MentionSpan)).mp fails)

theorem Fits.exists_isSpurious {span : MentionSpan} (fits : s.Fits span) :
    ∃ spurious, s.isSpurious span = .ok spurious := by
  have within := fits.within
  rw [MentionSpan.isWithin, Bool.and_eq_true, decide_eq_true_iff, decide_eq_true_iff] at within
  have inside : span.start < s.tokens.length := Nat.lt_of_lt_of_le within.1 within.2
  rw [isSpurious, List.getElem?_eq_getElem inside]
  dsimp only
  split
  · exact ⟨true, rfl⟩
  · split
    · exact ⟨false, rfl⟩
    · exact ⟨_, rfl⟩

/-- Whatever is dropped, the candidates stay the same spans. -/
theorem map_foldl_absorbWith (numbered : List (Nat × MentionSpan)) (candidates : Candidates) :
    (numbered.foldl s.absorbWith candidates).map (fun c => c.2.1) =
      candidates.map fun c => c.2.1 := by
  refine List.foldlRecOn (motive := fun now : Candidates =>
    now.map (fun c => c.2.1) = candidates.map fun c => c.2.1) numbered _ rfl ?_
  intro now same outer _
  rw [absorbWith, ← same]
  split
  · rfl
  · rw [List.map_map]
    rfl

/-- Of spans that fit, some are kept. -/
theorem exists_removeSpurious {spans : List MentionSpan} (fits : ∀ span ∈ spans, s.Fits span) :
    ∃ kept, s.removeSpurious spans = .ok kept ∧ ∀ span ∈ kept, span ∈ spans := by
  obtain ⟨spurious, judged⟩ := exists_mapM fun span mem => (fits span mem).exists_isSpurious
  rw [removeSpurious, judged]
  refine ⟨_, rfl, fun span mem => ?_⟩
  obtain ⟨c, chosen, rfl⟩ := List.mem_map.mp mem
  have listed := List.mem_map_of_mem (f := fun c : Nat × MentionSpan × Bool => c.2.1)
    (List.mem_of_mem_filter chosen)
  rw [map_foldl_absorbWith, List.map_map] at listed
  obtain ⟨⟨⟨span, dropped⟩, i⟩, numbered, same⟩ := List.mem_map.mp listed
  have paired := List.mem_of_getElem? (List.mem_zipIdx_iff_getElem?.mp numbered)
  show c.2.1 ∈ spans
  rw [← same]
  exact (List.of_mem_zip paired).1

/-! ## Detection -/

theorem detectMentions_eq (s : Sentence) : s.detectMentions =
    (match s.phraseSpans with
      | .ok phrases => Except.ok phrases
      | .error fault => .error (.fault fault)) >>= fun phrases =>
        (phrases.foldl (addPhrase s.namedEntitySpans) s.namedEntitySpans).mapM s.withHead >>=
          s.removeSpurious := by
  unfold detectMentions
  cases s.phraseSpans <;> rfl

theorem exists_detectMentions (fits : s.ParseFits) (tagged : ¬s.Mistagged) (within : ¬s.Overruns) :
    ∃ spans, s.detectMentions = .ok spans ∧ ∀ span ∈ spans, s.Fits span := by
  cases found : s.phraseSpans with
  | error fault =>
    obtain ⟨unparsed, i, tag, -, first⟩ := phraseSpans_eq_error_iff.mp found
    exact absurd ⟨unparsed, first.not_legalTags⟩ tagged
  | ok phrases =>
    have holds : ∀ span ∈ phrases.foldl (addPhrase s.namedEntitySpans) s.namedEntitySpans,
        s.Holds span := by
      intro span mem
      rcases mem_foldl_addPhrase_cases mem with entity | phrase
      · exact holds_of_mem_namedEntitySpans entity
      · exact holds_of_mem_phraseSpans fits within found span phrase
    obtain ⟨candidates, headed⟩ := exists_mapM (f := s.withHead) fun span mem => by
      obtain ⟨candidate, headed, -⟩ := exists_withHead (holds span mem)
      exact ⟨candidate, headed⟩
    have fit : ∀ candidate ∈ candidates, s.Fits candidate := by
      intro candidate mem
      obtain ⟨span, mem, headed⟩ := exists_mem_of_mapM_eq_ok headed mem
      obtain ⟨candidate', headed', fits⟩ := exists_withHead (holds span mem)
      cases headed'.symm.trans headed
      exact fits
    obtain ⟨kept, removed, sub⟩ := exists_removeSpurious fit
    refine ⟨kept, ?_, fun span mem => fit span (sub span mem)⟩
    rw [detectMentions_eq, found]
    exact bind_eq_ok_iff.mpr ⟨phrases, rfl, bind_eq_ok_iff.mpr ⟨candidates, headed, removed⟩⟩

theorem detectMentions_of_firstIllegal {i : Nat} {tag : String} (unparsed : s.parse? = none)
    (first : FirstIllegal s.chunkTags i tag) :
    s.detectMentions = .error (.fault (.illegalChunkTag i tag)) := by
  rw [detectMentions_eq, phraseSpans_eq_error_iff.mpr ⟨unparsed, i, tag, rfl, first⟩]
  rfl

/-- A noun phrase beyond the tokens lies in no entity, so that its head is looked for. -/
theorem Overruns.detectMentions (overruns : s.Overruns) :
    s.detectMentions = .error .outOfRange := by
  obtain ⟨phrases, found, span, listed, beyond⟩ := overruns.exists_mem_phraseSpans
  have outside : s.namedEntitySpans.any (isInside span) = false := by
    refine List.any_eq_false.mpr fun entity mem inside => ?_
    rw [isInside, Bool.and_eq_true, decide_eq_true_iff, decide_eq_true_iff] at inside
    have within := (holds_of_mem_namedEntitySpans mem).2
    omega
  have headless : s.withHead span = .error .outOfRange := by
    rw [withHead, findHead_of_beyond overruns.unparsed beyond]
    rfl
  have stops := mapM_eq_error (f := s.withHead) (fun _ _ => withHead_eq_error)
    (mem_foldl_addPhrase listed outside) headless
  rw [detectMentions_eq, found]
  show (_ >>= s.removeSpurious) = _
  rw [stops]
  rfl

/-- The detection on a sentence stops at its first chunk tag that is not legal, or because a noun
phrase goes on beyond its tokens. -/
theorem detectMentions_eq_error_iff (fits : s.ParseFits) {stop : Stop} :
    s.detectMentions = .error stop ↔
      (s.parse? = none ∧ ∃ i tag, stop = .fault (.illegalChunkTag i tag) ∧
        FirstIllegal s.chunkTags i tag) ∨ stop = .outOfRange ∧ s.Overruns := by
  constructor
  · intro stops
    by_cases overruns : s.Overruns
    · cases overruns.detectMentions.symm.trans stops
      exact .inr ⟨rfl, overruns⟩
    · by_cases mistagged : s.Mistagged
      · obtain ⟨unparsed, illegal⟩ := mistagged
        obtain ⟨i, tag, first⟩ := exists_firstIllegal illegal
        cases (detectMentions_of_firstIllegal unparsed first).symm.trans stops
        exact .inl ⟨unparsed, i, tag, rfl, first⟩
      · obtain ⟨spans, found, -⟩ := exists_detectMentions fits mistagged overruns
        cases found.symm.trans stops
  · rintro (⟨unparsed, i, tag, rfl, first⟩ | ⟨rfl, overruns⟩)
    · exact detectMentions_of_firstIllegal unparsed first
    · exact overruns.detectMentions

/-- Where the detection comes to an end, all that it finds fits the sentence. -/
theorem fits_of_detectMentions (fits : s.ParseFits) {spans : List MentionSpan}
    (found : s.detectMentions = .ok spans) : ∀ span ∈ spans, s.Fits span := by
  have tagged : ¬s.Mistagged := by
    rintro ⟨unparsed, illegal⟩
    obtain ⟨i, tag, first⟩ := exists_firstIllegal illegal
    cases found.symm.trans (detectMentions_of_firstIllegal unparsed first)
  have within : ¬s.Overruns := fun overruns => by
    cases found.symm.trans overruns.detectMentions
  obtain ⟨spans', found', all⟩ := exists_detectMentions fits tagged within
  cases found.symm.trans found'
  exact all

end Sentence

namespace Document

variable {doc : Document}

/-- The sentences of a document have parses that fit. -/
def ParsesFit (doc : Document) : Prop := ∀ s ∈ doc.sentences, s.ParseFits

/-- Where and why the detection on a document stops: at the first sentence on which it does. -/
inductive DetectionStops (doc : Document) : Stop → Prop
  /-- All sentences up to one with an illegal tag are in order. -/
  | mistagged {n : Nat} {s : Sentence} {i : Nat} {tag : String}
    (first : FirstAt (fun s => s.Mistagged ∨ s.Overruns) doc.sentences n s)
    (unparsed : s.parse? = none) (illegal : FirstIllegal s.chunkTags i tag) :
    DetectionStops doc (.fault (.illegalChunkTag i tag))
  /-- All sentences up to one with a phrase beyond its tokens are in order. -/
  | overrun {n : Nat} {s : Sentence}
    (first : FirstAt (fun s => s.Mistagged ∨ s.Overruns) doc.sentences n s)
    (overruns : s.Overruns) : DetectionStops doc .outOfRange

theorem exists_detectMentions_eq_error_iff (fit : doc.ParsesFit) {s : Sentence}
    (mem : s ∈ doc.sentences) :
    (∃ stop, s.detectMentions = .error stop) ↔ s.Mistagged ∨ s.Overruns := by
  constructor
  · rintro ⟨stop, stops⟩
    rcases (Sentence.detectMentions_eq_error_iff (fit s mem)).mp stops with
      ⟨unparsed, i, tag, -, first⟩ | ⟨-, overruns⟩
    · exact .inl ⟨unparsed, first.not_legalTags⟩
    · exact .inr overruns
  · rintro (⟨unparsed, illegal⟩ | overruns)
    · obtain ⟨i, tag, first⟩ := exists_firstIllegal illegal
      exact ⟨_, Sentence.detectMentions_of_firstIllegal unparsed first⟩
    · exact ⟨_, overruns.detectMentions⟩

theorem detectMentions_eq_error_iff (fit : doc.ParsesFit) {stop : Stop} :
    doc.detectMentions = .error stop ↔ doc.DetectionStops stop := by
  rw [detectMentions, mapM_eq_error_iff]
  constructor
  · rintro ⟨n, s, first, stops⟩
    have first := first.congr fun _ mem => exists_detectMentions_eq_error_iff fit mem
    rcases (Sentence.detectMentions_eq_error_iff (fit s first.mem)).mp stops with
      ⟨unparsed, i, tag, rfl, illegal⟩ | ⟨rfl, overruns⟩
    · exact .mistagged first unparsed illegal
    · exact .overrun first overruns
  · intro stops
    cases stops with
    | @mistagged n s i tag first unparsed illegal =>
      exact ⟨n, s, first.congr fun _ mem => (exists_detectMentions_eq_error_iff fit mem).symm,
        Sentence.detectMentions_of_firstIllegal unparsed illegal⟩
    | @overrun n s first overruns =>
      exact ⟨n, s, first.congr fun _ mem => (exists_detectMentions_eq_error_iff fit mem).symm,
        overruns.detectMentions⟩

/-- All that is detected fits the sentence for which it is listed. -/
theorem fits_of_detectMentions (fit : doc.ParsesFit) {rows : List (List MentionSpan)}
    (detected : doc.detectMentions = .ok rows) {i : Nat} {s : Sentence} {row : List MentionSpan}
    (here : doc.sentences[i]? = some s) (listed : rows[i]? = some row) :
    ∀ span ∈ row, s.Fits span := by
  obtain ⟨row', there, found⟩ := exists_getElem?_of_map_eq (mapM_eq_ok_iff.mp detected) here
  rw [listed] at there
  cases there
  exact Sentence.fits_of_detectMentions (fit s (List.mem_of_getElem? here)) found

end Document

end Discourse
