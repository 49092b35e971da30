import Discourse.Proofs.Mention.Registration
import Discourse.Proofs.Preparation.Detection
/-!
# Building mentions from checked spans

A span outside its sentence is passed over.  One within its sentence becomes a mention, unless a
head is given for it that the sentence does not have; the first such head ends the work, with the
number that the mention would have had (`initializeMentions_of_first`).  Nothing later goes wrong:
twins keep their heads, and where there is a parse each head is a leaf of it
(`exists_initializeMentions`).
-/

namespace Discourse

namespace PlacedSpan

/-- Whether the head of a span, if one is given, is a token of its sentence. -/
def HeadInside (entry : PlacedSpan) : Prop :=
  ∀ head, entry.2.2.head? = some head → head < entry.2.1.length

theorem exists_head_of_not_headInside {entry : PlacedSpan} (outside : ¬entry.HeadInside) :
    ∃ head, entry.2.2.head? = some head ∧ entry.2.1.length ≤ head := by
  rw [HeadInside, not_forall] at outside
  obtain ⟨head, outside⟩ := outside
  rw [Classical.not_imp] at outside
  exact ⟨head, outside.1, Nat.le_of_not_lt outside.2⟩

end PlacedSpan

/-- A mention of a sentence that has its head. -/
def Mention.HeadedIn (m : Mention) (sentences : List Sentence) : Prop :=
  ∃ s, sentences[m.sentence]? = some s ∧ m.head < s.length

section Building

variable (lex : Lexicon) (next : MentionId) {s : Sentence} {i : Nat} {span : MentionSpan}

theorem holds_of_isWithin (within : span.isWithin s = true) : s.Holds (span.start, span.stop) := by
  rw [MentionSpan.isWithin, Bool.and_eq_true, decide_eq_true_iff, decide_eq_true_iff] at within
  exact within

theorem exists_buildMention (within : span.isWithin s = true)
    (inside : PlacedSpan.HeadInside (i, s, span)) :
    ∃ m, buildMention lex s i next span = .ok (some m) ∧ m.sentence = i ∧ m.head < s.length := by
  have holds := holds_of_isWithin within
  have first : span.start < s.tokens.length := Nat.lt_of_lt_of_le holds.1 holds.2
  have starts := List.getElem?_eq_getElem first
  rw [buildMention_eq, within]
  cases given : span.head? with
  | some head =>
    have token : head < s.tokens.length := inside head given
    refine ⟨mentionOfTokens lex s i next span head s.tokens[span.start] s.tokens[head],
      bind_eq_ok_iff.mpr ⟨head, rfl, ?_⟩, rfl, token⟩
    rw [starts, List.getElem?_eq_getElem token]
  | none =>
    obtain ⟨head, found, -, before⟩ := Sentence.exists_findHead holds
    have token : head < s.tokens.length := Nat.lt_of_lt_of_le before holds.2
    refine ⟨mentionOfTokens lex s i next span head s.tokens[span.start] s.tokens[head],
      bind_eq_ok_iff.mpr ⟨head, found, ?_⟩, rfl, token⟩
    rw [starts, List.getElem?_eq_getElem token]

theorem buildMention_of_headOutside {head : Nat} (within : span.isWithin s = true)
    (given : span.head? = some head) (beyond : s.length ≤ head) :
    buildMention lex s i next span = .error (.fault (.missingHeadLeaf next head)) := by
  have nowhere : s.tokens[head]? = none := List.getElem?_eq_none beyond
  rw [buildMention_eq, within, given]
  refine (pure_bind (m := Except Stop) head _).trans ?_
  rw [nowhere]
  cases s.tokens[span.start]? <;> rfl

end Building

section Rows

variable (lex : Lexicon) (next : MentionId) {entries : List PlacedSpan}

theorem buildMention_of_not_within {entry : PlacedSpan} (out : ¬entry.isWithin = true) :
    buildMention lex entry.2.1 entry.1 next entry.2.2 = .ok none := by
  rw [buildMention_eq, if_pos]
  simpa [PlacedSpan.isWithin] using out

theorem exists_buildMentions
    (inside : ∀ entry ∈ entries.filter PlacedSpan.isWithin, entry.HeadInside) :
    ∃ built, buildMentions lex next entries = (built, none) ∧
      ∀ m ∈ built, ∃ entry ∈ entries, m.sentence = entry.1 ∧ m.head < entry.2.1.length := by
  induction entries generalizing next with
  | nil => exact ⟨[], rfl, fun m mem => absurd mem List.not_mem_nil⟩
  | cons entry rest ih =>
    by_cases within : entry.isWithin = true
    · rw [List.filter_cons_of_pos within] at inside
      obtain ⟨here, others⟩ := List.forall_mem_cons.mp inside
      obtain ⟨m, first, sentence, head⟩ := exists_buildMention lex next within here
      obtain ⟨built, rest_eq, all⟩ := ih (next + 1) others
      refine ⟨m :: built, ?_, ?_⟩
      · rw [buildMentions, first]
        dsimp only
        rw [rest_eq]
      · refine List.forall_mem_cons.mpr ⟨⟨entry, List.mem_cons_self, sentence, head⟩, ?_⟩
        intro m mem
        obtain ⟨entry', listed, facts⟩ := all m mem
        exact ⟨entry', List.mem_cons_of_mem entry listed, facts⟩
    · rw [List.filter_cons_of_neg within] at inside
      obtain ⟨built, rest_eq, all⟩ := ih next inside
      refine ⟨built, ?_, fun m mem => ?_⟩
      · rw [buildMentions, buildMention_of_not_within lex next within]
        exact rest_eq
      · obtain ⟨entry', listed, facts⟩ := all m mem
        exact ⟨entry', List.mem_cons_of_mem entry listed, facts⟩

/-- The first head outside its sentence is the one that is reported, under the number of its
mention. -/
theorem buildMentions_of_first {k head : Nat} {entry : PlacedSpan}
    (first : FirstAt (fun entry => ¬entry.HeadInside) (entries.filter PlacedSpan.isWithin) k entry)
    (given : entry.2.2.head? = some head) :
    (buildMentions lex next entries).2 = some (.fault (.missingHeadLeaf (next + k) head)) := by
  induction entries generalizing next k with
  | nil => cases first
  | cons e rest ih =>
    rw [buildMentions]
    by_cases within : e.isWithin = true
    · rw [List.filter_cons_of_pos within] at first
      cases first with
      | here outside =>
        obtain ⟨head', given', beyond⟩ := PlacedSpan.exists_head_of_not_headInside outside
        cases given.symm.trans given'
        rw [buildMention_of_headOutside lex next within given beyond]
        rfl
      | @later _ _ _ k inside first =>
        obtain ⟨m, built, -⟩ := exists_buildMention lex next within
          (Classical.not_not.mp inside)
        have later := ih (next + 1) first
        rw [built]
        dsimp only
        rw [later, Nat.add_right_comm, Nat.add_assoc]
    · rw [List.filter_cons_of_neg within] at first
      rw [buildMention_of_not_within lex next within]
      exact ih next first

end Rows

/-! ## Twins -/

section Twins

variable {β : Type} {f : Mention → β}

theorem map_strictTwins (keeps : ∀ m id, f (m.claiming id) = f m) (pool row : List Mention) :
    (strictTwins pool row).map f = row.map f := by
  induction row generalizing pool with
  | nil => rfl
  | cons m rest ih =>
    rw [strictTwins]
    split
    · rw [List.map_cons, keeps, ih, List.map_cons]
    · rw [List.map_cons, ih, List.map_cons]

theorem map_spanTwins (keeps : ∀ m id, f (m.claiming id) = f m)
    (spans unclaimed row : List Mention) :
    (spanTwins spans unclaimed row).1.map f = row.map f := by
  induction row generalizing spans unclaimed with
  | nil => rfl
  | cons m rest ih =>
    rw [spanTwins]
    split
    · rw [List.map_cons, keeps, ih, List.map_cons]
    · rw [List.map_cons, ih, List.map_cons]

theorem map_headTwins (keeps : ∀ m id, f (m.claiming id) = f m) (unclaimed row : List Mention) :
    (headTwins unclaimed row).map f = row.map f := by
  induction row generalizing unclaimed with
  | nil => rfl
  | cons m rest ih =>
    rw [headTwins]
    split
    · rw [List.map_cons, ih, List.map_cons]
    · split
      · rw [List.map_cons, keeps, ih, List.map_cons]
      · rw [List.map_cons, ih, List.map_cons]

/-- What a claim does not change is the same for all mentions after their twins have been found. -/
theorem TwinPolicy.map_pair (policy : TwinPolicy) (keeps : ∀ m id, f (m.claiming id) = f m)
    (gold row : List Mention) : (policy.pair gold row).map f = row.map f := by
  cases policy with
  | strict => exact map_strictTwins keeps gold row
  | relaxed => exact (map_headTwins keeps _ _).trans (map_spanTwins keeps _ gold row)

theorem Document.map_findTwins (keeps : ∀ m id, f (m.claiming id) = f m) (doc : Document)
    (policy : TwinPolicy) (rows : List (List Mention)) :
    (doc.findTwins policy rows).2.flatten.map f = rows.flatten.map f := by
  rw [findTwins]
  split
  · rfl
  · have each : (rows.zipIdx.map fun entry =>
        policy.pair (doc.goldOf entry.2) entry.1).map (List.map f) = rows.map (List.map f) := by
      rw [List.map_map]
      conv_rhs => rw [← List.zipIdx_map_fst 0 rows, List.map_map]
      exact List.map_congr_left fun entry _ => policy.map_pair keeps _ _
    rw [List.map_flatten, List.map_flatten]
    exact congrArg List.flatten each

theorem Document.headedIn_of_mem_findTwins (doc : Document) (policy : TwinPolicy)
    {rows : List (List Mention)} {sentences : List Sentence}
    (headed : ∀ m ∈ rows.flatten, m.HeadedIn sentences) :
    ∀ m ∈ (doc.findTwins policy rows).2.flatten, m.HeadedIn sentences := by
  intro m mem
  have listed := List.mem_map_of_mem (f := fun m : Mention => (m.sentence, m.head)) mem
  rw [doc.map_findTwins (fun _ _ => rfl) policy rows] at listed
  obtain ⟨m', mem', site⟩ := List.mem_map.mp listed
  obtain ⟨s, here, head⟩ := headed m' mem'
  obtain ⟨sentence_eq, head_eq⟩ := Prod.mk.inj site
  exact ⟨s, sentence_eq ▸ here, head_eq ▸ head⟩

theorem Document.sentences_findTwins (doc : Document) (policy : TwinPolicy)
    (rows : List (List Mention)) : (doc.findTwins policy rows).1.sentences = doc.sentences := by
  rw [findTwins]
  split <;> rfl

end Twins

namespace Document

variable {doc : Document} (lex : Lexicon) (policy : TwinPolicy) {raw : RawMentions}

/-! ## Registering -/

theorem exists_subtreeOf (fit : doc.ParsesFit) {m : Mention} (headed : m.HeadedIn doc.sentences) :
    ∃ subtree?, doc.subtreeOf m = .ok subtree? := by
  obtain ⟨s, here, inside⟩ := headed
  rw [subtreeOf, here, Option.bind_some]
  cases parse : s.parse? with
  | none => exact ⟨none, rfl⟩
  | some tree =>
    rw [← fit s (List.mem_of_getElem? here) tree parse, ← ParseTree.isSome_leafId?_iff] at inside
    obtain ⟨leaf, found⟩ := Option.isSome_iff_exists.mp inside
    exact ⟨some (tree.nounPhraseFor leaf), by simp only [found]⟩

theorem exists_registerAll (fit : doc.ParsesFit) {entries : List (Mention × Nat)}
    (headed : ∀ entry ∈ entries, entry.1.HeadedIn doc.sentences) :
    ∃ d, doc.registerAll entries = (d, none) := by
  induction entries generalizing doc with
  | nil => exact ⟨doc, rfl⟩
  | cons entry rest ih =>
    obtain ⟨first, others⟩ := List.forall_mem_cons.mp headed
    obtain ⟨subtree?, found⟩ := exists_subtreeOf fit first
    rw [registerAll, found]
    exact ih fit others

theorem exists_fillMentions (fit : doc.ParsesFit) {rows : List (List Mention)}
    (headed : ∀ m ∈ rows.flatten, m.HeadedIn doc.sentences) :
    ∃ d, doc.fillMentions rows = (d, none) := by
  have placed : ∀ entry ∈ rows.flatMap List.zipIdx, entry.1.HeadedIn doc.sentences := by
    intro entry mem
    obtain ⟨row, listed, mem⟩ := List.mem_flatMap.mp mem
    have mem := List.mem_of_getElem? (List.mem_zipIdx_iff_getElem?.mp mem)
    exact headed entry.1 (List.mem_flatten.mpr ⟨row, listed, mem⟩)
  have fit : ParsesFit { doc with predicted := doc.sentences.map fun _ => [] } := fit
  obtain ⟨d, filled⟩ := exists_registerAll fit placed
  rw [fillMentions, filled]
  exact ⟨_, rfl⟩

/-! ## Taking mentions up -/

/-- The gold spans within their sentences, in the order in which they are numbered. -/
def goldSpans (doc : Document) (raw : RawMentions) : List PlacedSpan :=
  spansWithin doc.sentences (raw.gold?.getD [])

/-- All spans within their sentences in the order in which they are numbered, the gold ones
first. -/
def numberedSpans (doc : Document) (raw : RawMentions) : List PlacedSpan :=
  doc.goldSpans raw ++ spansWithin doc.sentences raw.predicted

theorem takeGold_of_headsInside (inside : ∀ entry ∈ doc.goldSpans raw, entry.HeadInside) :
    ∃ taken, doc.takeGold lex raw.gold? = (taken, (doc.goldSpans raw).length, none) ∧
      taken.sentences = doc.sentences := by
  rw [goldSpans] at inside ⊢
  cases gold : raw.gold? with
  | none =>
    refine ⟨doc, ?_, rfl⟩
    simp [takeGold, spansWithin, spansOf]
  | some rows =>
    rw [gold, Option.getD_some] at inside
    rw [Option.getD_some]
    obtain ⟨built, building, -⟩ := exists_buildMentions lex 0 inside
    have numbered := congrArg List.length (buildMentions_numbered building).origins
    rw [List.length_map, List.length_map] at numbered
    rw [takeGold]
    dsimp only
    rw [building, spansWithin, ← numbered]
    refine ⟨_, rfl, ?_⟩
    rw [deriveAntecedents_eq]

theorem takeGold_of_first {k head : Nat} {entry : PlacedSpan}
    (first : FirstAt (fun entry => ¬entry.HeadInside) (doc.goldSpans raw) k entry)
    (given : entry.2.2.head? = some head) :
    ∃ taken next, doc.takeGold lex raw.gold? =
      (taken, next, some (.fault (.missingHeadLeaf k head))) := by
  rw [goldSpans] at first
  cases gold : raw.gold? with
  | none =>
    rw [gold] at first
    have mem := first.mem
    simp [spansWithin, spansOf] at mem
  | some rows =>
    rw [gold, Option.getD_some] at first
    have stops := buildMentions_of_first lex 0 first given
    rw [Nat.zero_add] at stops
    rw [takeGold]
    dsimp only
    rw [stops]
    exact ⟨_, _, rfl⟩

/-- The first head that is given outside its sentence ends the work. -/
theorem initializeMentions_of_first {id head : Nat} {entry : PlacedSpan}
    (first : FirstAt (fun entry => ¬entry.HeadInside) (doc.numberedSpans raw) id entry)
    (given : entry.2.2.head? = some head) :
    (doc.initializeMentions lex policy raw).2 = .error (.fault (.missingHeadLeaf id head)) := by
  rw [initializeMentions]
  rcases first.append_cases with gold | ⟨inside, k, rfl, predicted⟩
  · obtain ⟨taken, next, taking⟩ := takeGold_of_first lex gold given
    rw [taking]
  · have gold : ∀ entry ∈ doc.goldSpans raw, entry.HeadInside := fun entry mem =>
      Classical.not_not.mp (inside entry mem)
    obtain ⟨taken, taking, sentences⟩ := takeGold_of_headsInside lex gold
    rw [← sentences] at predicted
    have stops := buildMentions_of_first lex (doc.goldSpans raw).length predicted given
    rw [taking]
    dsimp only
    generalize buildMentions lex _ (spansOf taken.sentences raw.predicted) = built at stops ⊢
    obtain ⟨built, stop?⟩ := built
    cases stops
    rfl

/-- With all heads given inside their sentences, and parses that fit, all mentions are taken up. -/
theorem exists_initializeMentions (fit : doc.ParsesFit)
    (inside : ∀ entry ∈ doc.numberedSpans raw, entry.HeadInside) :
    ∃ d count, doc.initializeMentions lex policy raw = (d, .ok count) := by
  obtain ⟨gold, predicted⟩ := List.forall_mem_append.mp inside
  obtain ⟨taken, taking, sentences⟩ := takeGold_of_headsInside lex gold
  rw [← sentences] at predicted
  obtain ⟨built, building, all⟩ := exists_buildMentions lex (doc.goldSpans raw).length predicted
  have fit : taken.ParsesFit := by
    rw [ParsesFit, sentences]
    exact fit
  have headed : ∀ m ∈ (rowsOf taken.sentences.length built).flatten,
      m.HeadedIn taken.sentences := by
    intro m mem
    rw [(buildMentions_numbered building).flatten_rowsOf] at mem
    obtain ⟨⟨i, s, span⟩, listed, sentence, head⟩ := all m mem
    exact ⟨s, sentence ▸ (mem_spansOf_iff.mp listed).1, head⟩
  have twinned := taken.headedIn_of_mem_findTwins policy headed
  have kept := taken.sentences_findTwins policy (rowsOf taken.sentences.length built)
  rw [initializeMentions, taking]
  dsimp only
  rw [building]
  dsimp only
  generalize taken.findTwins policy (rowsOf taken.sentences.length built) = twins at *
  rw [← kept] at twinned
  have fit : twins.1.ParsesFit := by
    rw [ParsesFit, kept]
    exact fit
  obtain ⟨d, filled⟩ := exists_fillMentions fit twinned
  rw [filled]
  exact ⟨_, _, rfl⟩

end Document

end Discourse
