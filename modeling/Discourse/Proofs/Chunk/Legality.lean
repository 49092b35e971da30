import Discourse.Chunk
/-!
# Legal chunk tags

A row of chunk tags is legal where each tag is one, and continues no other phrase than that of the
tag before it.  Legal tags are decoded and others are not, with a fault that names the first tag
which is not legal (`decodeChunks_eq_error_iff`).  The chunks cover the places of the row, each with
the label of the tag there (`Decoded`), so that what a row has as a chunk it has as a tag.
-/

namespace Discourse

/-- The phrase that a tag belongs to. -/
def ChunkTag.label? : ChunkTag → Option String
  | .outside => none
  | .begins label | .continues label => some label

/-- The tag at a place of a row, if there is one. -/
def tagAt? (tags : List String) (i : Nat) : Option ChunkTag := tags[i]?.bind ChunkTag.ofString?

/-- The phrase that the tag at a place of a row belongs to. -/
def phraseAt? (tags : List String) (i : Nat) : Option String := (tagAt? tags i).bind ChunkTag.label?

/-- Whether a place of a row has a tag and one that continues at most the phrase before it. -/
def LegalAt (tags : List String) (i : Nat) : Prop :=
  ∃ tag, tagAt? tags i = some tag ∧
    ∀ label, tag = .continues label → ∃ j, j + 1 = i ∧ phraseAt? tags j = some label

/-- Every tag of a row is legal. -/
def LegalTags (tags : List String) : Prop := ∀ i < tags.length, LegalAt tags i

/-- The first tag of a row that is not legal, with its place. -/
structure FirstIllegal (tags : List String) (i : Nat) (tag : String) : Prop where
  here : tags[i]? = some tag
  illegal : ¬LegalAt tags i
  before : ∀ j < i, LegalAt tags j

section Append

variable {done : List String} {i : Nat} (rest : List String)

theorem tagAt?_append (inside : i < done.length) : tagAt? (done ++ rest) i = tagAt? done i := by
  rw [tagAt?, List.getElem?_append_left inside, tagAt?]

theorem phraseAt?_append (inside : i < done.length) :
    phraseAt? (done ++ rest) i = phraseAt? done i := by
  rw [phraseAt?, tagAt?_append rest inside, phraseAt?]

theorem tagAt?_length (tag : String) :
    tagAt? (done ++ tag :: rest) done.length = ChunkTag.ofString? tag := by
  rw [tagAt?, List.getElem?_append_right (Nat.le_refl _), Nat.sub_self]
  rfl

end Append

/-- Chunks, the last one first, that some tags have been decoded to. -/
structure Decoded (done : List String) (chunks : List Chunk) : Prop where
  /-- The last chunk goes on to the last tag. -/
  last : ∀ c ∈ chunks.head?, c.stop = done.length
  bounds : ∀ c ∈ chunks, c.start < c.stop ∧ c.stop ≤ done.length
  labels : ∀ c ∈ chunks, ∀ i, c.start ≤ i → i < c.stop → phraseAt? done i = c.label?
  covered : ∀ i < done.length, ∃ c ∈ chunks, c.start ≤ i ∧ i < c.stop

namespace Decoded

variable {done rest : List String} {chunks : List Chunk} {tag : String} {t : ChunkTag}

theorem nil : Decoded [] [] := by
  refine ⟨?_, ?_, ?_, ?_⟩
  · intro c mem
    cases mem
  · intro c mem
    cases mem
  · intro c mem
    cases mem
  · intro i inside
    cases inside

/-- One more tag that starts a chunk, or stands outside any phrase. -/
theorem cons (decoded : Decoded done chunks) (read : ChunkTag.ofString? tag = some t) :
    Decoded (done ++ [tag]) (⟨t.label?, done.length, done.length + 1⟩ :: chunks) where
  last := by
    rintro c ⟨⟩
    rw [List.length_append, List.length_singleton]
  bounds := by
    rw [List.length_append, List.length_singleton]
    refine List.forall_mem_cons.mpr ⟨⟨Nat.lt_succ_self _, Nat.le_refl _⟩, fun c mem => ?_⟩
    obtain ⟨nonempty, within⟩ := decoded.bounds c mem
    exact ⟨nonempty, Nat.le_succ_of_le within⟩
  labels := by
    refine List.forall_mem_cons.mpr ⟨fun i from_ to_ => ?_, fun c mem i from_ to_ => ?_⟩
    · obtain rfl : i = done.length := Nat.le_antisymm (Nat.le_of_lt_succ to_) from_
      rw [phraseAt?, tagAt?_length, read]
      rfl
    · have within := (decoded.bounds c mem).2
      rw [phraseAt?_append _ (Nat.lt_of_lt_of_le to_ within)]
      exact decoded.labels c mem i from_ to_
  covered := by
    intro i inside
    rw [List.length_append, List.length_singleton] at inside
    rcases Nat.lt_succ_iff_lt_or_eq.mp inside with old | rfl
    · obtain ⟨c, mem, here⟩ := decoded.covered i old
      exact ⟨c, List.mem_cons_of_mem _ mem, here⟩
    · exact ⟨_, List.mem_cons_self, Nat.le_refl _, Nat.lt_succ_self _⟩

/-- One more tag that continues the last chunk. -/
theorem extend {last : Chunk} (decoded : Decoded done (last :: chunks))
    (read : ChunkTag.ofString? tag = some t) (same : t.label? = last.label?) :
    Decoded (done ++ [tag]) ({ last with stop := done.length + 1 } :: chunks) where
  last := by
    rintro c ⟨⟩
    rw [List.length_append, List.length_singleton]
  bounds := by
    obtain ⟨⟨nonempty, within⟩, others⟩ := List.forall_mem_cons.mp decoded.bounds
    rw [List.length_append, List.length_singleton]
    refine List.forall_mem_cons.mpr ⟨⟨?_, Nat.le_refl _⟩, fun c mem => ?_⟩
    · show last.start < done.length + 1
      omega
    · exact ⟨(others c mem).1, Nat.le_succ_of_le (others c mem).2⟩
  labels := by
    have ends : last.stop = done.length := decoded.last last rfl
    obtain ⟨here, others⟩ := List.forall_mem_cons.mp decoded.labels
    refine List.forall_mem_cons.mpr ⟨fun i from_ to_ => ?_, fun c mem i from_ to_ => ?_⟩
    · rcases Nat.lt_succ_iff_lt_or_eq.mp to_ with old | rfl
      · rw [phraseAt?_append _ old]
        exact here i from_ (ends ▸ old)
      · rw [phraseAt?, tagAt?_length, read]
        exact same
    · have within := (decoded.bounds c (List.mem_cons_of_mem last mem)).2
      rw [phraseAt?_append _ (Nat.lt_of_lt_of_le to_ within)]
      exact others c mem i from_ to_
  covered := by
    have ends : last.stop = done.length := decoded.last last rfl
    intro i inside
    rw [List.length_append, List.length_singleton] at inside
    rcases Nat.lt_succ_iff_lt_or_eq.mp inside with old | rfl
    · obtain ⟨c, mem, from_, to_⟩ := decoded.covered i old
      rcases List.mem_cons.mp mem with rfl | mem
      · exact ⟨_, List.mem_cons_self, from_, Nat.lt_succ_of_lt old⟩
      · exact ⟨c, List.mem_cons_of_mem _ mem, from_, to_⟩
    · refine ⟨_, List.mem_cons_self, ?_, Nat.lt_succ_self _⟩
      have nonempty := (decoded.bounds last List.mem_cons_self).1
      show last.start ≤ done.length
      omega

/-- The phrase at the end of the tags is that of the last chunk. -/
theorem phraseAt?_of_succ {last : Chunk} (decoded : Decoded done (last :: chunks)) :
    ∃ j, j + 1 = done.length ∧ phraseAt? done j = last.label? := by
  have ends : last.stop = done.length := decoded.last last rfl
  have nonempty := (decoded.bounds last List.mem_cons_self).1
  refine ⟨done.length - 1, by omega, ?_⟩
  exact decoded.labels last List.mem_cons_self _ (by omega) (by omega)

/-- What one more tag does: a legal tag is decoded with the others. -/
theorem step (decoded : Decoded done chunks) (tag : String) (rest : List String) :
    (∃ chunks', (ChunkTag.ofString? tag).bind (addTag? done.length chunks) = some chunks' ∧
        LegalAt (done ++ tag :: rest) done.length ∧ Decoded (done ++ [tag]) chunks') ∨
      (ChunkTag.ofString? tag).bind (addTag? done.length chunks) = none ∧
        ¬LegalAt (done ++ tag :: rest) done.length := by
  have tagged : tagAt? (done ++ tag :: rest) done.length = ChunkTag.ofString? tag :=
    tagAt?_length rest tag
  cases read : ChunkTag.ofString? tag with
  | none =>
    refine .inr ⟨rfl, ?_⟩
    rintro ⟨t, there, -⟩
    rw [tagged, read] at there
    cases there
  | some t =>
    rw [read] at tagged
    rw [Option.bind_some]
    cases t with
    | outside =>
      refine .inl ⟨_, rfl, ⟨.outside, tagged, fun label other => ?_⟩, decoded.cons read⟩
      cases other
    | begins label =>
      refine .inl ⟨_, rfl, ⟨.begins label, tagged, fun label other => ?_⟩, decoded.cons read⟩
      cases other
    | continues label =>
      have legal_iff : LegalAt (done ++ tag :: rest) done.length ↔
          ∃ j, j + 1 = done.length ∧ phraseAt? done j = some label := by
        constructor
        · rintro ⟨t, there, continued⟩
          rw [tagged] at there
          cases there
          obtain ⟨j, next, phrase⟩ := continued label rfl
          rw [phraseAt?_append _ (by omega)] at phrase
          exact ⟨j, next, phrase⟩
        · rintro ⟨j, next, phrase⟩
          refine ⟨.continues label, tagged, ?_⟩
          rintro _ ⟨⟩
          rw [← phraseAt?_append (tag :: rest) (by omega)] at phrase
          exact ⟨j, next, phrase⟩
      rw [legal_iff]
      cases chunks with
      | nil =>
        refine .inr ⟨rfl, ?_⟩
        rintro ⟨j, next, -⟩
        obtain ⟨c, mem, -⟩ := decoded.covered j (by omega)
        cases mem
      | cons last others =>
        obtain ⟨j, next, phrase⟩ := decoded.phraseAt?_of_succ
        by_cases same : last.label? = some label
        · refine .inl ⟨_, if_pos ⟨decoded.last last rfl, same⟩, ⟨j, next, phrase.trans same⟩, ?_⟩
          exact decoded.extend read same.symm
        · refine .inr ⟨if_neg fun both => same both.2, ?_⟩
          rintro ⟨j', next', phrase'⟩
          obtain rfl : j' = j := by omega
          exact same (phrase.symm.trans phrase')

end Decoded

section Rows

variable {done rest tags : List String} {chunks : List Chunk}

theorem addTags_ok (decoded : Decoded done chunks) {chunks' : List Chunk}
    (ok : addTags done.length chunks rest = .ok chunks') :
    Decoded (done ++ rest) chunks' ∧
      ∀ i, done.length ≤ i → i < (done ++ rest).length → LegalAt (done ++ rest) i := by
  induction rest generalizing done chunks with
  | nil =>
    cases ok
    rw [List.append_nil]
    exact ⟨decoded, fun i from_ to_ => absurd to_ (Nat.not_lt_of_le from_)⟩
  | cons tag rest ih =>
    rw [addTags] at ok
    rcases decoded.step tag rest with ⟨next, added, legal, decoded⟩ | ⟨added, -⟩
    · rw [added] at ok
      have length : done.length + 1 = (done ++ [tag]).length := by simp
      dsimp only at ok
      rw [length] at ok
      obtain ⟨all, later⟩ := ih decoded ok
      rw [List.append_assoc, List.singleton_append] at all later
      refine ⟨all, fun i from_ to_ => ?_⟩
      rcases Nat.eq_or_lt_of_le from_ with rfl | after
      · exact legal
      · exact later i (length ▸ after) to_
    · rw [added] at ok
      cases ok

theorem addTags_error (decoded : Decoded done chunks) {fault : Fault}
    (error : addTags done.length chunks rest = .error fault) :
    ∃ i tag, fault = .illegalChunkTag i tag ∧ (done ++ rest)[i]? = some tag ∧
      ¬LegalAt (done ++ rest) i ∧ ∀ j, done.length ≤ j → j < i → LegalAt (done ++ rest) j := by
  induction rest generalizing done chunks with
  | nil => cases error
  | cons tag rest ih =>
    rw [addTags] at error
    rcases decoded.step tag rest with
      ⟨next, added, legal, decoded⟩ | ⟨added, illegal⟩
    · rw [added] at error
      have length : done.length + 1 = (done ++ [tag]).length := by simp
      dsimp only at error
      rw [length] at error
      obtain ⟨i, tag', rfl, here, illegal, before⟩ := ih decoded error
      rw [List.append_assoc, List.singleton_append] at here illegal before
      refine ⟨i, tag', rfl, here, illegal, fun j from_ to_ => ?_⟩
      rcases Nat.eq_or_lt_of_le from_ with rfl | after
      · exact legal
      · exact before j (length ▸ after) to_
    · rw [added] at error
      cases error
      refine ⟨done.length, tag, rfl, ?_, illegal, fun j from_ to_ => ?_⟩
      · rw [List.getElem?_append_right (Nat.le_refl _), Nat.sub_self]
        rfl
      · exact absurd to_ (Nat.not_lt_of_le from_)

/-- Tags that are decoded are legal, and the chunks are theirs. -/
theorem decodeChunks_ok (ok : decodeChunks tags = .ok chunks) :
    LegalTags tags ∧ Decoded tags chunks.reverse := by
  obtain ⟨reversed, added, rfl⟩ := map_eq_ok_iff.mp ok
  obtain ⟨decoded, legal⟩ := addTags_ok .nil added
  rw [List.reverse_reverse]
  exact ⟨fun i inside => legal i (Nat.zero_le i) inside, decoded⟩

theorem firstIllegal_of_decodeChunks {fault : Fault} (error : decodeChunks tags = .error fault) :
    ∃ i tag, fault = .illegalChunkTag i tag ∧ FirstIllegal tags i tag := by
  obtain ⟨i, tag, rfl, here, illegal, before⟩ := addTags_error .nil (map_eq_error_iff.mp error)
  exact ⟨i, tag, rfl, here, illegal, fun j to_ => before j (Nat.zero_le j) to_⟩

theorem FirstIllegal.not_legalTags {i : Nat} {tag : String} (first : FirstIllegal tags i tag) :
    ¬LegalTags tags := by
  intro legal
  exact first.illegal (legal i (List.getElem?_eq_some_iff.mp first.here).1)

theorem FirstIllegal.unique {i j : Nat} {tag tag' : String} (first : FirstIllegal tags i tag)
    (other : FirstIllegal tags j tag') : i = j ∧ tag = tag' := by
  have same : i = j := by
    rcases Nat.lt_trichotomy i j with lt | eq | gt
    · exact absurd (other.before i lt) first.illegal
    · exact eq
    · exact absurd (first.before j gt) other.illegal
  subst same
  exact ⟨rfl, Option.some.inj (first.here.symm.trans other.here)⟩

theorem exists_firstIllegal (illegal : ¬LegalTags tags) : ∃ i tag, FirstIllegal tags i tag := by
  cases outcome : decodeChunks tags with
  | ok chunks => exact absurd (decodeChunks_ok outcome).1 illegal
  | error fault =>
    obtain ⟨i, tag, -, first⟩ := firstIllegal_of_decodeChunks outcome
    exact ⟨i, tag, first⟩

theorem exists_decodeChunks_iff : (∃ chunks, decodeChunks tags = .ok chunks) ↔ LegalTags tags := by
  constructor
  · rintro ⟨chunks, ok⟩
    exact (decodeChunks_ok ok).1
  · intro legal
    cases outcome : decodeChunks tags with
    | ok chunks => exact ⟨chunks, rfl⟩
    | error fault =>
      obtain ⟨i, tag, -, first⟩ := firstIllegal_of_decodeChunks outcome
      exact absurd legal first.not_legalTags

/-- Tags are refused for the first one that is not legal. -/
theorem decodeChunks_eq_error_iff {fault : Fault} : decodeChunks tags = .error fault ↔
    ∃ i tag, fault = .illegalChunkTag i tag ∧ FirstIllegal tags i tag := by
  constructor
  · exact firstIllegal_of_decodeChunks
  · rintro ⟨i, tag, rfl, first⟩
    cases outcome : decodeChunks tags with
    | ok chunks => exact absurd (decodeChunks_ok outcome).1 first.not_legalTags
    | error fault =>
      obtain ⟨j, tag', rfl, other⟩ := firstIllegal_of_decodeChunks outcome
      obtain ⟨rfl, rfl⟩ := first.unique other
      rfl

end Rows

end Discourse
