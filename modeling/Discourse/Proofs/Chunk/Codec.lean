import Discourse.Proofs.Chunk.Legality
/-!
# Writing chunks as tags

Chunks that lie one behind another (`Tiling`) are written as a row of tags, and what is written is
decoded again to the same chunks; the other way round the chunks of a row are written as that row
(`decodeChunks_eq_ok_iff`).  A label may be any text, an empty one and one with hyphens too: what is
behind the first hyphen of a tag is the label, and the mark in front of it has none
(`ChunkTag.ofString?_eq_some_iff`).

Two chunks side by side may have one label, since the second starts with a tag of its own.  Tokens
outside any phrase have no such tag, and so only chunks of a single one of them can be written.
-/

namespace Discourse

/-! ## Tags -/

/-- A tag as it is written. -/
def ChunkTag.text : ChunkTag → String
  | .outside => "O"
  | .begins label => "B-" ++ label
  | .continues label => "I-" ++ label

/-- What is in front of the first hyphen, and what is behind it. -/
theorem cutAt?_hyphen_eq_some_iff {tag front back : String} :
    Text.cutAt? '-' tag = some (front, back) ↔
      tag = front ++ "-" ++ back ∧ '-' ∉ front.toList := by
  rw [Text.cutAt?_eq_some_iff]
  rfl

/-- Reading a tag inverts writing it. -/
theorem ChunkTag.ofString?_eq_some_iff {tag : String} {t : ChunkTag} :
    ofString? tag = some t ↔ tag = t.text := by
  constructor
  · intro read
    unfold ofString? at read
    split at read
    next outside =>
      cases read
      exact outside
    next =>
      split at read
      next label cut =>
        cases read
        exact (cutAt?_hyphen_eq_some_iff.mp cut).1
      next label cut =>
        cases read
        exact (cutAt?_hyphen_eq_some_iff.mp cut).1
      next => cases read
  · rintro rfl
    cases t with
    | outside => rfl
    | begins label =>
      have other : "B-" ++ label ≠ "O" := fun same => by simpa using congrArg String.toList same
      have cut : Text.cutAt? '-' ("B-" ++ label) = some ("B", label) :=
        cutAt?_hyphen_eq_some_iff.mpr ⟨rfl, by decide⟩
      rw [ofString?, text, if_neg other, cut]
      rfl
    | continues label =>
      have other : "I-" ++ label ≠ "O" := fun same => by simpa using congrArg String.toList same
      have cut : Text.cutAt? '-' ("I-" ++ label) = some ("I", label) :=
        cutAt?_hyphen_eq_some_iff.mpr ⟨rfl, by decide⟩
      rw [ofString?, text, if_neg other, cut]
      rfl

/-- At a place of a row stands O, a tag that starts a phrase, or one that continues the phrase of
the tag right before it. -/
def WellPlaced (tags : List String) (i : Nat) : Prop :=
  tags[i]? = some "O" ∨ ∃ label, tags[i]? = some ("B-" ++ label) ∨
    tags[i]? = some ("I-" ++ label) ∧ ∃ j, j + 1 = i ∧
      (tags[j]? = some ("B-" ++ label) ∨ tags[j]? = some ("I-" ++ label))

section Places

variable {tags : List String} {i : Nat}

theorem tagAt?_eq_some_iff {t : ChunkTag} : tagAt? tags i = some t ↔ tags[i]? = some t.text := by
  simp only [tagAt?, Option.bind_eq_some_iff, ChunkTag.ofString?_eq_some_iff, exists_eq_right]

theorem phraseAt?_eq_some_iff {label : String} : phraseAt? tags i = some label ↔
    tags[i]? = some ("B-" ++ label) ∨ tags[i]? = some ("I-" ++ label) := by
  rw [phraseAt?, Option.bind_eq_some_iff]
  simp only [tagAt?_eq_some_iff]
  constructor
  · rintro ⟨t, here, phrase⟩
    cases t with
    | outside => cases phrase
    | begins label =>
      cases phrase
      exact .inl here
    | continues label =>
      cases phrase
      exact .inr here
  · rintro (here | here)
    · exact ⟨.begins label, here, rfl⟩
    · exact ⟨.continues label, here, rfl⟩

theorem legalAt_iff : LegalAt tags i ↔ WellPlaced tags i := by
  simp only [LegalAt, tagAt?_eq_some_iff, phraseAt?_eq_some_iff]
  constructor
  · rintro ⟨t, here, continued⟩
    cases t with
    | outside => exact .inl here
    | begins label => exact .inr ⟨label, .inl here⟩
    | continues label => exact .inr ⟨label, .inr ⟨here, continued label rfl⟩⟩
  · rintro (here | ⟨label, here | ⟨here, continued⟩⟩)
    · exact ⟨.outside, here, fun _ other => ChunkTag.noConfusion other⟩
    · exact ⟨.begins label, here, fun _ other => ChunkTag.noConfusion other⟩
    · refine ⟨.continues label, here, ?_⟩
      rintro _ ⟨⟩
      exact continued

end Places

/-! ## Chunks as they are written -/

/-- Chunks that are not empty and lie one behind another, the first from `start` on and the last up
to `stop`. -/
def Tiling (start stop : Nat) : List Chunk → Prop
  | [] => start = stop
  | c :: rest => c.start = start ∧ c.start < c.stop ∧ Tiling c.stop stop rest

/-- Outside any phrase each token is a chunk of its own. -/
def Chunk.IsPlain (c : Chunk) : Prop := c.label? = none → c.stop = c.start + 1

/-- The tags of a chunk. -/
def Chunk.tags (c : Chunk) : List String :=
  match c.label? with
  | none => [ChunkTag.outside.text]
  | some label => (ChunkTag.begins label).text ::
      List.replicate (c.stop - c.start - 1) (ChunkTag.continues label).text

/-- The tags of a row of chunks. -/
def chunkTags (chunks : List Chunk) : List String := chunks.flatMap Chunk.tags

theorem Tiling.append_singleton_iff {chunks : List Chunk} {c : Chunk} {start stop : Nat} :
    Tiling start stop (chunks ++ [c]) ↔
      Tiling start c.start chunks ∧ c.start < c.stop ∧ c.stop = stop := by
  induction chunks generalizing start with
  | nil => simp only [List.nil_append, Tiling, eq_comm]
  | cons first rest ih => simp only [List.cons_append, Tiling, ih, and_assoc]

/-- Where a row of chunks ends is said by the chunks. -/
theorem Tiling.stop_unique {chunks : List Chunk} {start stop stop' : Nat}
    (tiling : Tiling start stop chunks) (tiling' : Tiling start stop' chunks) : stop = stop' := by
  induction chunks generalizing start with
  | nil => exact tiling.symm.trans tiling'
  | cons c rest ih => exact ih tiling.2.2 tiling'.2.2

/-- One more token in a phrase is one more tag that continues it. -/
theorem Chunk.tags_extend {c : Chunk} {label : String} (labelled : c.label? = some label)
    (nonempty : c.start < c.stop) :
    { c with stop := c.stop + 1 }.tags = c.tags ++ [(ChunkTag.continues label).text] := by
  have longer : c.stop + 1 - c.start - 1 = (c.stop - c.start - 1) + 1 := by omega
  rw [tags, tags]
  simp only [labelled, longer, List.replicate_succ', List.cons_append]

/-! ## From tags to chunks -/

/-- Chunks, the last one first, that are written as a row of tags. -/
structure Written (done : List String) (chunks : List Chunk) : Prop where
  tiling : Tiling 0 done.length chunks.reverse
  plain : ∀ c ∈ chunks, c.IsPlain
  tags : chunkTags chunks.reverse = done

namespace Written

variable {done : List String} {chunks chunks' : List Chunk}

theorem nil : Written [] [] := ⟨rfl, fun _ mem => absurd mem List.not_mem_nil, rfl⟩

/-- One more chunk of a single token. -/
theorem cons (written : Written done chunks) {label? : Option String} {tag : String}
    (single : (⟨label?, done.length, done.length + 1⟩ : Chunk).tags = [tag]) :
    Written (done ++ [tag]) (⟨label?, done.length, done.length + 1⟩ :: chunks) where
  tiling := by
    rw [List.reverse_cons, Tiling.append_singleton_iff, List.length_append]
    exact ⟨written.tiling, Nat.lt_succ_self _, rfl⟩
  plain := List.forall_mem_cons.mpr ⟨fun _ => rfl, written.plain⟩
  tags := by
    rw [chunkTags, List.reverse_cons, List.flatMap_append, List.flatMap_singleton, single]
    exact congrArg (· ++ [tag]) written.tags

theorem extend {last : Chunk} {label : String} (written : Written done (last :: chunks))
    (ends : last.stop = done.length) (labelled : last.label? = some label) :
    Written (done ++ [(ChunkTag.continues label).text])
      ({ last with stop := done.length + 1 } :: chunks) := by
  obtain ⟨tiling, plain, tags⟩ := written
  rw [List.reverse_cons, Tiling.append_singleton_iff] at tiling
  obtain ⟨front, nonempty, -⟩ := tiling
  refine ⟨?_, ?_, ?_⟩
  · rw [List.reverse_cons, Tiling.append_singleton_iff, List.length_append]
    exact ⟨front, by simp only; omega, rfl⟩
  · refine List.forall_mem_cons.mpr ⟨fun outside => ?_, (List.forall_mem_cons.mp plain).2⟩
    rw [labelled] at outside
    cases outside
  · rw [chunkTags, List.reverse_cons, List.flatMap_append, List.flatMap_singleton] at tags ⊢
    rw [← ends, Chunk.tags_extend labelled nonempty, ← List.append_assoc, tags]

theorem step {t : ChunkTag} (written : Written done chunks)
    (added : addTag? done.length chunks t = some chunks') : Written (done ++ [t.text]) chunks' := by
  cases t with
  | outside =>
    cases added
    exact written.cons rfl
  | begins label =>
    cases added
    refine written.cons ?_
    rw [Chunk.tags]
    simp only [Nat.add_sub_cancel_left, Nat.sub_self, List.replicate_zero]
  | continues label =>
    cases chunks with
    | nil => cases added
    | cons last rest =>
      obtain ⟨⟨ends, labelled⟩, same⟩ := Option.ite_none_right_eq_some.mp added
      cases same
      exact written.extend ends labelled

theorem addTags {rest : List String} (written : Written done chunks)
    (ok : addTags done.length chunks rest = .ok chunks') : Written (done ++ rest) chunks' := by
  induction rest generalizing done chunks with
  | nil =>
    cases ok
    rwa [List.append_nil]
  | cons tag rest ih =>
    rw [Discourse.addTags] at ok
    split at ok
    next next decoded =>
      obtain ⟨t, read, added⟩ := Option.bind_eq_some_iff.mp decoded
      obtain rfl := ChunkTag.ofString?_eq_some_iff.mp read
      have more := written.step added
      have length : done.length + 1 = (done ++ [t.text]).length := by simp
      rw [length] at ok
      have all := ih more ok
      rwa [List.append_assoc] at all
    next => cases ok

end Written

/-! ## From chunks to tags -/

section Encoding

variable {chunks : List Chunk}

/-- Tags that continue a phrase are decoded into its last chunk. -/
theorem addTags_replicate (i start k : Nat) (label : String) (chunks : List Chunk)
    (rest : List String) :
    addTags i (⟨some label, start, i⟩ :: chunks)
        (List.replicate k (ChunkTag.continues label).text ++ rest) =
      addTags (i + k) (⟨some label, start, i + k⟩ :: chunks) rest := by
  induction k generalizing i with
  | zero => rfl
  | succ k ih =>
    have next : addTag? i (⟨some label, start, i⟩ :: chunks) (.continues label) =
        some (⟨some label, start, i + 1⟩ :: chunks) := if_pos ⟨rfl, rfl⟩
    rw [List.replicate_succ, List.cons_append, addTags, ChunkTag.ofString?_eq_some_iff.mpr rfl,
      Option.bind_some, next]
    dsimp only
    rw [ih, show i + 1 + k = i + (k + 1) by omega]

/-- The tags of a chunk are decoded to it. -/
theorem addTags_tags {c : Chunk} (nonempty : c.start < c.stop) (plain : c.IsPlain)
    (chunks : List Chunk) (rest : List String) :
    addTags c.start chunks (c.tags ++ rest) = addTags c.stop (c :: chunks) rest := by
  obtain ⟨label?, start, stop⟩ := c
  cases label? with
  | none =>
    obtain rfl : stop = start + 1 := plain rfl
    rw [Chunk.tags, List.singleton_append, addTags, ChunkTag.ofString?_eq_some_iff.mpr rfl,
      Option.bind_some, addTag?]
  | some label =>
    have length : start + 1 + (stop - start - 1) = stop := by
      have nonempty : start < stop := nonempty
      omega
    rw [Chunk.tags, List.cons_append, addTags, ChunkTag.ofString?_eq_some_iff.mpr rfl,
      Option.bind_some, addTag?]
    dsimp only
    rw [addTags_replicate, length]

theorem addTags_chunkTags {start stop : Nat} (tiling : Tiling start stop chunks)
    (plain : ∀ c ∈ chunks, c.IsPlain) (before : List Chunk) :
    addTags start before (chunkTags chunks) = .ok (chunks.reverse ++ before) := by
  induction chunks generalizing start before with
  | nil => rfl
  | cons c rest ih =>
    obtain ⟨rfl, nonempty, tiling⟩ := tiling
    obtain ⟨first, others⟩ := List.forall_mem_cons.mp plain
    rw [chunkTags, List.flatMap_cons, addTags_tags nonempty first, ← chunkTags, ih tiling others,
      List.reverse_cons, List.append_assoc, List.singleton_append]

theorem decodeChunks_chunkTags {n : Nat} (tiling : Tiling 0 n chunks)
    (plain : ∀ c ∈ chunks, c.IsPlain) : decodeChunks (chunkTags chunks) = .ok chunks := by
  rw [decodeChunks, addTags_chunkTags tiling plain, List.append_nil]
  exact congrArg Except.ok chunks.reverse_reverse

end Encoding

/-- Tags are decoded to the chunks that are written with these tags. -/
theorem decodeChunks_eq_ok_iff {tags : List String} {chunks : List Chunk} :
    decodeChunks tags = .ok chunks ↔
      Tiling 0 tags.length chunks ∧ (∀ c ∈ chunks, c.IsPlain) ∧ chunkTags chunks = tags := by
  constructor
  · intro ok
    obtain ⟨reversed, added, rfl⟩ := map_eq_ok_iff.mp ok
    obtain ⟨tiling, plain, written⟩ := Written.nil.addTags added
    exact ⟨tiling, fun c mem => plain c (List.mem_reverse.mp mem), written⟩
  · rintro ⟨tiling, plain, rfl⟩
    exact decodeChunks_chunkTags tiling plain

/-- Decoding tags inverts writing them.  Tags are decoded if each of them is O, starts a phrase, or
continues the phrase of the tag right before it, and otherwise refused for the first that does not.
The chunks are those that lie one behind another and are written with these tags; and whatever
chunks lie one behind another are what their tags are decoded to, if those outside any phrase are
single tokens. -/
theorem decodeChunks_inverts (tags : List String) :
    ((∃ chunks, decodeChunks tags = .ok chunks) ↔ ∀ i < tags.length, WellPlaced tags i) ∧
    (∀ chunks, decodeChunks tags = .ok chunks ↔
      Tiling 0 tags.length chunks ∧ (∀ c ∈ chunks, c.IsPlain) ∧ chunkTags chunks = tags) ∧
    (∀ n chunks, Tiling 0 n chunks → (∀ c ∈ chunks, c.IsPlain) →
      (chunkTags chunks).length = n ∧ decodeChunks (chunkTags chunks) = .ok chunks) ∧
    ∀ fault, decodeChunks tags = .error fault ↔
      ∃ i tag, fault = .illegalChunkTag i tag ∧ tags[i]? = some tag ∧ ¬WellPlaced tags i ∧
        ∀ j < i, WellPlaced tags j := by
  refine ⟨?_, fun chunks => decodeChunks_eq_ok_iff, fun n chunks tiling plain => ?_,
    fun fault => ?_⟩
  · rw [exists_decodeChunks_iff]
    exact forall₂_congr fun i _ => legalAt_iff
  · have decoded := decodeChunks_chunkTags tiling plain
    exact ⟨(decodeChunks_eq_ok_iff.mp decoded).1.stop_unique tiling, decoded⟩
  · rw [decodeChunks_eq_error_iff]
    refine exists₂_congr fun i tag => and_congr_right fun _ => ?_
    constructor
    · rintro ⟨here, illegal, before⟩
      exact ⟨here, fun placed => illegal (legalAt_iff.mpr placed),
        fun j earlier => legalAt_iff.mp (before j earlier)⟩
    · rintro ⟨here, illegal, before⟩
      exact ⟨here, fun legal => illegal (legalAt_iff.mp legal),
        fun j earlier => legalAt_iff.mpr (before j earlier)⟩

/-- A label with a hyphen, an empty label, and two phrases of one kind side by side. -/
example : decodeChunks ["B-x-y", "I-x-y", "B-", "I-", "B-", "O"] =
    .ok [⟨some "x-y", 0, 2⟩, ⟨some "", 2, 4⟩, ⟨some "", 4, 5⟩, ⟨none, 5, 6⟩] := by rfl

end Discourse
