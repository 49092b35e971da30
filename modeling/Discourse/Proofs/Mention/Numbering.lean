import Discourse.Mention.Registry
import Discourse.Proofs.GoldLink.Place
/-!
# Numbering

Spans become mentions one after the other; a span outside its sentence becomes none and uses no
number.  So the mentions built are those of the spans within their sentences, in the order of the
lists and numbered without a gap (`buildMentions_numbered`).  That order is by sentence, and putting
the mentions into one row per sentence only cuts it (`flatten_rowsOf`).
-/

namespace Discourse

/-- A span with its sentence, after the number of the sentence. -/
abbrev PlacedSpan := Nat × Sentence × MentionSpan

/-- What the data say of a mention: where it is, and to which gold mentions it belongs. -/
structure Origin where
  sentence : Nat
  span : Nat × Nat
  antecedent? : Option MentionId
  goldCluster? : Option Nat
deriving DecidableEq, Repr

/-- What a mention has from its span. -/
def Mention.origin (m : Mention) : Origin := ⟨m.sentence, m.span, m.antecedent?, m.goldCluster?⟩

/-- The sentence of a mention and its span there. -/
def Mention.site (m : Mention) : Nat × Nat × Nat := (m.sentence, m.span)

namespace PlacedSpan

/-- Whether a span lies within its sentence. -/
def isWithin (entry : PlacedSpan) : Bool := entry.2.2.isWithin entry.2.1

/-- The sentence of a span and the span. -/
def site (entry : PlacedSpan) : Nat × Nat × Nat := (entry.1, entry.2.2.start, entry.2.2.stop)

/-- What a span says of its mention. -/
def origin (entry : PlacedSpan) : Origin :=
  ⟨entry.1, (entry.2.2.start, entry.2.2.stop), entry.2.2.antecedent?, entry.2.2.goldCluster?⟩

end PlacedSpan

/-- The spans within their sentences, in the order of the rows, one row per sentence. -/
def spansWithin (sentences : List Sentence) (rows : List (List MentionSpan)) : List PlacedSpan :=
  (spansOf sentences rows).filter PlacedSpan.isWithin

theorem buildMention_eq (lex : Lexicon) (s : Sentence) (i : Nat) (id : MentionId)
    (span : MentionSpan) :
    buildMention lex s i id span =
      if !span.isWithin s then .ok none
      else (match span.head? with
        | some head => .ok head
        | none => s.findHead span.start span.stop) >>= fun headAt =>
          match s.tokens[span.start]?, s.tokens[headAt]? with
          | some first, some head => .ok (some (mentionOfTokens lex s i id span headAt first head))
          | _, _ => .error (.fault (.missingHeadLeaf id headAt)) := by
  unfold buildMention
  split
  · rfl
  · cases span.head? <;> rfl

theorem buildMention_cases {lex : Lexicon} {s : Sentence} {i : Nat} {id : MentionId}
    {span : MentionSpan} {m? : Option Mention} (ok : buildMention lex s i id span = .ok m?) :
    span.isWithin s = false ∧ m? = none ∨
      span.isWithin s = true ∧ ∃ m, m? = some m ∧ m.id = id ∧ m.hasTwin = false ∧
        m.origin = PlacedSpan.origin (i, s, span) := by
  rw [buildMention_eq] at ok
  split at ok
  next out =>
    cases ok
    exact .inl ⟨by simpa using out, rfl⟩
  next within =>
    obtain ⟨headAt, -, ok⟩ := bind_eq_ok_iff.mp ok
    split at ok
    next =>
      cases ok
      exact .inr ⟨by simpa using within, _, rfl, rfl, rfl, rfl⟩
    next => cases ok

/-- The mentions of the spans within their sentences, without a gap in the numbers. -/
structure Numbered (next : MentionId) (entries : List PlacedSpan) (built : List Mention) :
    Prop where
  ids : built.map Mention.id = List.range' next built.length
  origins : built.map Mention.origin = (entries.filter PlacedSpan.isWithin).map PlacedSpan.origin
  unclaimed : ∀ m ∈ built, m.hasTwin = false

theorem buildMentions_numbered {lex : Lexicon} {next : MentionId} {entries : List PlacedSpan}
    {built : List Mention} (ok : buildMentions lex next entries = (built, none)) :
    Numbered next entries built := by
  induction entries generalizing next built with
  | nil =>
    cases ok
    exact ⟨rfl, rfl, fun m mem => absurd mem List.not_mem_nil⟩
  | cons entry rest ih =>
    obtain ⟨i, s, span⟩ := entry
    rw [buildMentions] at ok
    cases first : buildMention lex s i next span with
    | error stop =>
      rw [first] at ok
      cases ok
    | ok m? =>
      rw [first] at ok
      rcases buildMention_cases first with ⟨out, rfl⟩ | ⟨within, m, rfl, id, unclaimed, origin⟩
      · obtain ⟨ids, origins, others⟩ := ih ok
        refine ⟨ids, ?_, others⟩
        rw [origins, List.filter_cons_of_neg]
        simpa [PlacedSpan.isWithin] using out
      · cases later : buildMentions lex (next + 1) rest with
        | mk built' stop? =>
          rw [later] at ok
          cases ok
          obtain ⟨ids, origins, others⟩ := ih later
          refine ⟨?_, ?_, List.forall_mem_cons.mpr ⟨unclaimed, others⟩⟩
          · rw [List.map_cons, ids, id, List.length_cons, List.range'_succ]
          · have kept : ((i, s, span) :: rest).filter PlacedSpan.isWithin =
                (i, s, span) :: rest.filter PlacedSpan.isWithin := List.filter_cons_of_pos within
            rw [List.map_cons, origin, origins, kept, List.map_cons]

/-! ## Rows of sentences -/

theorem mem_spansOf_iff {sentences : List Sentence} {rows : List (List MentionSpan)} {i : Nat}
    {s : Sentence} {span : MentionSpan} :
    (i, s, span) ∈ spansOf sentences rows ↔
      sentences[i]? = some s ∧ ∃ row, rows[i]? = some row ∧ span ∈ row := by
  simp only [spansOf, List.mem_flatMap, List.mem_map, Prod.exists, List.mem_zipIdx_iff_getElem?,
    List.getElem?_zip_eq_some, Prod.mk.injEq]
  constructor
  · rintro ⟨_, row, _, ⟨at_i, row_i⟩, _, mem, rfl, rfl, rfl⟩
    exact ⟨at_i, row, row_i, mem⟩
  · rintro ⟨at_i, row, row_i, mem⟩
    exact ⟨s, row, i, ⟨at_i, row_i⟩, span, mem, rfl, rfl, rfl⟩

theorem spansOf_ascending (sentences : List Sentence) (rows : List (List MentionSpan)) :
    (spansOf sentences rows).Pairwise fun e f => e.1 ≤ f.1 := by
  refine ascending_flatMap_zipIdx (sentences.zip rows) ?_
  rintro e _ mem
  obtain ⟨span, -, rfl⟩ := List.mem_map.mp mem
  rfl

namespace Numbered

variable {next : MentionId} {entries : List PlacedSpan} {sentences : List Sentence}
  {rows : List (List MentionSpan)} {built : List Mention}

theorem id_of_getElem? (h : Numbered next entries built) {i : Nat} {m : Mention}
    (at_i : built[i]? = some m) : m.id = next + i := by
  have ids := congrArg (fun ids : List MentionId => ids[i]?) h.ids
  have lt : i < built.length := (List.getElem?_eq_some_iff.mp at_i).1
  simp only [List.getElem?_map, at_i, Option.map_some, List.getElem?_range' lt] at ids
  simpa using ids

theorem exists_getElem? (h : Numbered next entries built) {m : Mention} (mem : m ∈ built) :
    ∃ i, m.id = next + i ∧ built[i]? = some m := by
  obtain ⟨i, at_i⟩ := List.mem_iff_getElem?.mp mem
  exact ⟨i, h.id_of_getElem? at_i, at_i⟩

theorem nodup (h : Numbered next entries built) : (built.map Mention.id).Nodup := by
  rw [h.ids]
  exact List.nodup_range'

theorem map_site (h : Numbered next (spansOf sentences rows) built) :
    built.map Mention.site = (spansWithin sentences rows).map PlacedSpan.site := by
  have sites := congrArg (List.map fun o : Origin => (o.sentence, o.span)) h.origins
  rw [List.map_map, List.map_map] at sites
  exact sites

theorem exists_span (h : Numbered next (spansOf sentences rows) built) {m : Mention}
    (mem : m ∈ built) : ∃ entry ∈ spansOf sentences rows, PlacedSpan.isWithin entry = true ∧
      m.origin = PlacedSpan.origin entry := by
  have mem := List.mem_map_of_mem (f := Mention.origin) mem
  rw [h.origins] at mem
  obtain ⟨entry, inside, eq⟩ := List.mem_map.mp mem
  obtain ⟨listed, within⟩ := List.mem_filter.mp inside
  exact ⟨entry, listed, within, eq.symm⟩

theorem sentence_lt (h : Numbered next (spansOf sentences rows) built) {m : Mention}
    (mem : m ∈ built) : m.sentence < sentences.length := by
  obtain ⟨⟨i, s, span⟩, listed, -, eq⟩ := h.exists_span mem
  obtain ⟨at_i, -⟩ := mem_spansOf_iff.mp listed
  have same : m.sentence = i := congrArg Origin.sentence eq
  rw [same]
  exact (List.getElem?_eq_some_iff.mp at_i).1

theorem ascending (h : Numbered next (spansOf sentences rows) built) :
    built.Pairwise fun a b => a.sentence ≤ b.sentence := by
  have spans := (spansOf_ascending sentences rows).filter PlacedSpan.isWithin
  have origins : (built.map Mention.origin).Pairwise fun a b => a.sentence ≤ b.sentence := by
    rw [h.origins]
    exact List.pairwise_map.mpr spans
  rw [List.pairwise_map] at origins
  exact origins

end Numbered

theorem eq_filter_of_rowsOf {sentences : Nat} {built row : List Mention} {i : Nat}
    (row_i : (rowsOf sentences built)[i]? = some row) :
    row = built.filter fun m => m.sentence == i := by
  rw [rowsOf, List.getElem?_map, Option.map_eq_some_iff] at row_i
  obtain ⟨j, at_i, rfl⟩ := row_i
  obtain ⟨lt, rfl⟩ := List.getElem?_eq_some_iff.mp at_i
  rw [List.getElem_range]

/-- Of mentions in the order of their sentences those of one more sentence come last. -/
theorem filter_sentence_succ {built : List Mention}
    (ascending : built.Pairwise fun a b => a.sentence ≤ b.sentence) (n : Nat) :
    (built.filter fun m => m.sentence < n) ++ (built.filter fun m => m.sentence == n) =
      built.filter fun m => m.sentence < n + 1 := by
  induction built with
  | nil => rfl
  | cons m rest ih =>
    obtain ⟨first, tail⟩ := List.pairwise_cons.mp ascending
    have ih := ih tail
    rcases Nat.lt_trichotomy m.sentence n with lt | eq | gt
    · have le : m.sentence < n + 1 := by omega
      have ne : m.sentence ≠ n := by omega
      have below : (m :: rest).filter (fun m => decide (m.sentence < n)) =
          m :: rest.filter fun m => decide (m.sentence < n) :=
        List.filter_cons_of_pos (decide_eq_true lt)
      have here : (m :: rest).filter (fun m => m.sentence == n) =
          rest.filter fun m => m.sentence == n := List.filter_cons_of_neg (by simpa using ne)
      have upTo : (m :: rest).filter (fun m => decide (m.sentence < n + 1)) =
          m :: rest.filter fun m => decide (m.sentence < n + 1) :=
        List.filter_cons_of_pos (decide_eq_true le)
      rw [below, here, upTo, List.cons_append, ih]
    · -- nothing of an earlier sentence follows
      have none : (rest.filter fun m => decide (m.sentence < n)) = [] := by
        refine List.filter_eq_nil_iff.mpr fun later mem => ?_
        have := first later mem
        simp only [decide_eq_true_eq]
        omega
      rw [none, List.nil_append] at ih
      simp [eq, none, ih]
    · have above : ∀ later ∈ m :: rest, n < later.sentence := by
        refine List.forall_mem_cons.mpr ⟨gt, fun later mem => ?_⟩
        exact Nat.lt_of_lt_of_le gt (first later mem)
      have nothing : ∀ p : Nat → Bool, (∀ k, n < k → p k = false) →
          ((m :: rest).filter fun m => p m.sentence) = [] := by
        intro p above_false
        refine List.filter_eq_nil_iff.mpr fun later mem => ?_
        simp [above_false _ (above later mem)]
      rw [nothing (fun k => k < n) (by intros; simp; omega),
        nothing (fun k => k == n) (by intros; simp; omega),
        nothing (fun k => k < n + 1) (by intros; simp; omega)]
      rfl

/-- Mentions in the order of their sentences are only cut into rows. -/
theorem flatten_rowsOf {sentences : Nat} {built : List Mention}
    (ascending : built.Pairwise fun a b => a.sentence ≤ b.sentence)
    (bounded : ∀ m ∈ built, m.sentence < sentences) :
    (rowsOf sentences built).flatten = built := by
  have upTo : ∀ n, (rowsOf n built).flatten = built.filter fun m => m.sentence < n := by
    intro n
    induction n with
    | zero => simp [rowsOf]
    | succ n ih =>
      rw [← filter_sentence_succ ascending n, ← ih]
      simp [rowsOf, List.range_succ]
  rw [upTo]
  exact List.filter_eq_self.mpr fun m mem => decide_eq_true (bounded m mem)

theorem Numbered.flatten_rowsOf {next : MentionId} {sentences : List Sentence}
    {rows : List (List MentionSpan)} {built : List Mention}
    (h : Numbered next (spansOf sentences rows) built) :
    (rowsOf sentences.length built).flatten = built :=
  Discourse.flatten_rowsOf h.ascending fun _ mem => h.sentence_lt mem

end Discourse
