import Discourse.Proofs.Attribution.Cast
import Discourse.Proofs.Dialogue.Scanning
import Discourse.Proofs.Runs
/-!
# Quotations and their glyphs

What the scanner of quotations finds, said without the scanner.  The ranges it reports are marked off
by glyphs (`Document.GlyphRanges`): each reaches from a glyph that opens to the first glyph behind it
that closes, and what opens outside all of them is part of one last quotation, which nothing closes.
A document has only one such row of ranges (`GlyphRanges.unique`), so that this is all there is to
say: a row of quotations is the one found exactly if glyphs mark off its ranges and each of them is
told by its range (`markedQuotes_iff`).

For the scanner it is shown that a row of ranges is built up from the end of the document, a token at
a time where nothing is open, and a whole quotation at once where one is closed.
-/

namespace Discourse

namespace Document

variable {doc : Document} {start first stop place : Nat} {ranges : List (Nat × Nat)}

/-! ## Ranges -/

/-- A glyph stands here that opens a quotation outside all others. -/
def OpensAt (doc : Document) (place : Nat) : Prop :=
  ∃ t, doc.tokens[place]? = some t ∧ t.mayOpen = true

/-- A glyph stands here that closes the quotation around it. -/
def ClosesAt (doc : Document) (place : Nat) : Prop :=
  ∃ t, doc.tokens[place]? = some t ∧ t.mayClose = true

/-- A range of tokens is a quotation, from a glyph that opens to the first one behind it that closes. -/
structure Encloses (doc : Document) (first stop : Nat) : Prop where
  opens : doc.OpensAt first
  later : first + 1 < stop
  closes : doc.ClosesAt (stop - 1)
  between : ∀ place, first < place → place < stop - 1 → ¬doc.ClosesAt place
  inside : stop ≤ doc.tokenCount

/-- A place is in one of some ranges. -/
def IsCovered (ranges : List (Nat × Nat)) (place : Nat) : Prop :=
  ∃ r ∈ ranges, r.1 ≤ place ∧ place < r.2

/-- A quotation is opened behind all ranges and never closed. -/
structure Dangles (doc : Document) (start : Nat) (ranges : List (Nat × Nat)) (opener : Nat) :
    Prop where
  behind : start ≤ opener ∧ ∀ r ∈ ranges, r.2 ≤ opener
  opens : doc.OpensAt opener
  unclosed : ∀ place, opener < place → ¬doc.ClosesAt place
  /-- It is the first to be opened there. -/
  first : ∀ place, start ≤ place → place < opener → doc.OpensAt place → IsCovered ranges place

/-- The ranges that the glyphs mark off from a token on. -/
structure GlyphRanges (doc : Document) (start : Nat) (ranges : List (Nat × Nat)) : Prop where
  behind : ∀ r ∈ ranges, start ≤ r.1
  disjoint : ranges.Pairwise fun r r' => r.2 ≤ r'.1
  enclosed : ∀ r ∈ ranges, doc.Encloses r.1 r.2
  /-- What opens outside of them belongs to one last quotation. -/
  others : (∀ place, start ≤ place → doc.OpensAt place → IsCovered ranges place) ∨
    ∃ opener, doc.Dangles start ranges opener

theorem ClosesAt.lt_tokenCount (closes : doc.ClosesAt place) : place < doc.tokenCount := by
  obtain ⟨t, found, -⟩ := closes
  rw [← length_tokens]
  exact (List.getElem?_eq_some_iff.mp found).1

theorem Encloses.stop_eq {stop' : Nat} (h : doc.Encloses first stop)
    (h' : doc.Encloses first stop') : stop = stop' := by
  have stops : ∀ {s s' : Nat}, doc.Encloses first s → doc.Encloses first s' → ¬s < s' := by
    intro s s' h h' earlier
    have later := h.later
    exact h'.between (s - 1) (by omega) (by omega) h.closes
  have := stops h h'
  have := stops h' h
  omega

namespace GlyphRanges

/-- There is no range where nothing opens, nor behind an opener that nothing closes. -/
theorem nil (others : (∀ place, start ≤ place → ¬doc.OpensAt place) ∨
    doc.OpensAt start ∧ ∀ place, start < place → ¬doc.ClosesAt place) :
    doc.GlyphRanges start [] where
  behind r none := absurd none List.not_mem_nil
  disjoint := List.Pairwise.nil
  enclosed r none := absurd none List.not_mem_nil
  others := by
    rcases others with plain | ⟨opens, unclosed⟩
    · exact .inl fun place behind opens => absurd opens (plain place behind)
    · refine .inr ⟨start, ⟨Nat.le_refl start, fun r none => absurd none List.not_mem_nil⟩, opens,
        unclosed, fun place behind earlier => ?_⟩
      omega

theorem skip (plain : ¬doc.OpensAt start) (h : doc.GlyphRanges (start + 1) ranges) :
    doc.GlyphRanges start ranges where
  behind r mem := Nat.le_of_succ_le (h.behind r mem)
  disjoint := h.disjoint
  enclosed := h.enclosed
  others := by
    have apart : ∀ place, start ≤ place → doc.OpensAt place → start + 1 ≤ place := by
      intro place behind opens
      rcases Nat.eq_or_lt_of_le behind with rfl | later
      · exact absurd opens plain
      · exact later
    rcases h.others with covered | ⟨opener, dangles⟩
    · exact .inl fun place behind opens => covered place (apart place behind opens) opens
    · refine .inr ⟨opener, ⟨Nat.le_of_succ_le dangles.behind.1, dangles.behind.2⟩, dangles.opens,
        dangles.unclosed, fun place behind earlier opens => ?_⟩
      exact dangles.first place (apart place behind opens) earlier opens

theorem cons (h : doc.Encloses start stop) (rest : doc.GlyphRanges stop ranges) :
    doc.GlyphRanges start ((start, stop) :: ranges) where
  behind := by
    have later := h.later
    refine List.forall_mem_cons.mpr ⟨Nat.le_refl start, fun r mem => ?_⟩
    have behind := rest.behind r mem
    omega
  disjoint := List.pairwise_cons.mpr ⟨rest.behind, rest.disjoint⟩
  enclosed := List.forall_mem_cons.mpr ⟨h, rest.enclosed⟩
  others := by
    have later := h.later
    have here : ∀ place, start ≤ place → place < stop → IsCovered ((start, stop) :: ranges) place :=
      fun place behind before => ⟨_, List.mem_cons_self, behind, before⟩
    have there : ∀ place, IsCovered ranges place → IsCovered ((start, stop) :: ranges) place :=
      fun place ⟨r, mem, covers⟩ => ⟨r, List.mem_cons_of_mem _ mem, covers⟩
    rcases rest.others with covered | ⟨opener, dangles⟩
    · refine .inl fun place behind opens => ?_
      by_cases before : place < stop
      · exact here place behind before
      · exact there place (covered place (by omega) opens)
    · obtain ⟨behind, all⟩ := dangles.behind
      refine .inr ⟨opener, ⟨by omega, List.forall_mem_cons.mpr ⟨behind, all⟩⟩, dangles.opens,
        dangles.unclosed, fun place behind earlier opens => ?_⟩
      by_cases before : place < stop
      · exact here place behind before
      · exact there place (dangles.first place (by omega) earlier opens)

/-- A row of ranges goes on behind its first one. -/
theorem tail {r : Nat × Nat} (h : doc.GlyphRanges start (r :: ranges)) :
    doc.GlyphRanges r.2 ranges where
  behind := (List.pairwise_cons.mp h.disjoint).1
  disjoint := (List.pairwise_cons.mp h.disjoint).2
  enclosed := (List.forall_mem_cons.mp h.enclosed).2
  others := by
    have behind := (List.forall_mem_cons.mp h.behind).1
    have later := ((List.forall_mem_cons.mp h.enclosed).1).later
    have there : ∀ place, r.2 ≤ place → IsCovered (r :: ranges) place → IsCovered ranges place := by
      rintro place behind ⟨r', mem, begins, ends⟩
      rcases List.mem_cons.mp mem with rfl | mem
      · omega
      · exact ⟨r', mem, begins, ends⟩
    rcases h.others with covered | ⟨opener, dangles⟩
    · exact .inl fun place behind' opens => there place behind' (covered place (by omega) opens)
    · obtain ⟨first, all⟩ := List.forall_mem_cons.mp dangles.behind.2
      exact .inr ⟨opener, ⟨first, all⟩, dangles.opens, dangles.unclosed,
        fun place behind' earlier opens =>
          there place behind' (dangles.first place (by omega) earlier opens)⟩

/-- No quotation begins in front of all ranges. -/
theorem exists_le (h : doc.GlyphRanges start ranges) (behind : start ≤ first)
    (encloses : doc.Encloses first stop) : ∃ r ∈ ranges, r.1 ≤ first := by
  have covered : IsCovered ranges first := by
    rcases h.others with covered | ⟨opener, dangles⟩
    · exact covered first behind encloses.opens
    · refine dangles.first first behind ?_ encloses.opens
      -- the last quotation is opened behind, as it is not closed where this one is
      by_contra earlier
      have later := encloses.later
      exact dangles.unclosed (stop - 1) (by omega) encloses.closes
  obtain ⟨r, mem, begins, -⟩ := covered
  exact ⟨r, mem, begins⟩

theorem head_le {r r' : Nat × Nat} {ranges' : List (Nat × Nat)}
    (h : doc.GlyphRanges start (r :: ranges)) (h' : doc.GlyphRanges start (r' :: ranges')) :
    r.1 ≤ r'.1 := by
  obtain ⟨x, mem, begins⟩ := h.exists_le (h'.behind r' List.mem_cons_self)
    (h'.enclosed r' List.mem_cons_self)
  rcases List.mem_cons.mp mem with rfl | mem
  · exact begins
  · have later := (h.enclosed r List.mem_cons_self).later
    have behind := h.tail.behind x mem
    omega

/-- The glyphs mark off only one row of ranges. -/
theorem unique {ranges' : List (Nat × Nat)} (h : doc.GlyphRanges start ranges)
    (h' : doc.GlyphRanges start ranges') : ranges = ranges' := by
  induction ranges generalizing start ranges' with
  | nil =>
    cases ranges' with
    | nil => rfl
    | cons r' rest' =>
      obtain ⟨r, none, -⟩ := h.exists_le (h'.behind r' List.mem_cons_self)
        (h'.enclosed r' List.mem_cons_self)
      cases none
  | cons r rest ih =>
    cases ranges' with
    | nil =>
      obtain ⟨r', none, -⟩ := h'.exists_le (h.behind r List.mem_cons_self)
        (h.enclosed r List.mem_cons_self)
      cases none
    | cons r' rest' =>
      have starts : r.1 = r'.1 := Nat.le_antisymm (h.head_le h') (h'.head_le h)
      have encloses := h'.enclosed r' List.mem_cons_self
      rw [← starts] at encloses
      have stops : r.2 = r'.2 := (h.enclosed r List.mem_cons_self).stop_eq encloses
      have others := h'.tail
      rw [← stops] at others
      rw [Prod.ext starts stops, ih h.tail others]

end GlyphRanges

/-- The scanner reports the ranges that the glyphs mark off, from the token on at which it is or from
the glyph that is open. -/
theorem glyphRanges_quoteRanges {ts : List Token} {i : Nat} (here : doc.tokens.drop i = ts) :
    doc.GlyphRanges i (quoteRanges none i ts) ∧
      ∀ opener < i, doc.OpensAt opener →
        (∀ place, opener < place → place < i → ¬doc.ClosesAt place) →
        doc.GlyphRanges opener (quoteRanges (some opener) i ts) := by
  induction ts generalizing i with
  | nil =>
    have ended : ∀ place, i ≤ place → doc.tokens[place]? = none := by
      intro place behind
      rw [List.getElem?_eq_none_iff]
      exact Nat.le_trans (List.drop_eq_nil_iff.mp here) behind
    constructor
    · refine .nil (.inl fun place behind ⟨t, found, _⟩ => ?_)
      rw [ended place behind] at found
      cases found
    · refine fun opener before opens open? => .nil (.inr ⟨opens, fun place later closes => ?_⟩)
      by_cases here : place < i
      · exact open? place later here closes
      · obtain ⟨t, found, -⟩ := closes
        rw [ended place (by omega)] at found
        cases found
  | cons t rest ih =>
    have token : doc.tokens[i]? = some t := by
      rw [← Nat.add_zero i, ← List.getElem?_drop, here]
      rfl
    have next : doc.tokens.drop (i + 1) = rest := by
      rw [← List.drop_drop, here]
      rfl
    obtain ⟨closed, opened⟩ := ih next
    constructor
    · rw [quoteRanges_none_cons, glyphStep]
      split
      next opens => exact opened i (Nat.lt_succ_self i) ⟨t, token, opens⟩ fun _ _ _ => by omega
      next plain =>
        refine closed.skip ?_
        rintro ⟨t', found, opens⟩
        rw [token] at found
        cases found
        exact plain opens
    · intro opener before opens open?
      rw [quoteRanges_some_cons, glyphStep]
      split
      next closes =>
        have ends : doc.ClosesAt (i + 1 - 1) := ⟨t, token, closes⟩
        exact .cons ⟨opens, by omega, ends, open?, ends.lt_tokenCount⟩ closed
      next stays =>
        refine opened opener (by omega) opens fun place later earlier => ?_
        by_cases same : place = i
        · rintro ⟨t', found, closes⟩
          rw [same, token] at found
          cases found
          exact stays closes
        · exact open? place later (by omega)

/-! ## Quotations -/

/-- What a quotation at some place of a row says of its range. -/
structure FitsRange (doc : Document) (i : Nat) (q : Quotation) : Prop where
  index : q.index = i
  text : q.text =
    " ".intercalate (((doc.tokens.take q.tokenEnd).drop q.tokenBegin).map Token.word)
  sentenceBegin : ∃ j, doc.IsAddress q.sentenceBegin j q.tokenBegin
  sentenceEnd : ∃ j, doc.IsAddress q.sentenceEnd j (q.tokenEnd - 1)
  chars : q.beginChar? = (doc.token? q.tokenBegin).bind Token.beginChar? ∧
    q.endChar? = (doc.token? (q.tokenEnd - 1)).bind Token.endChar?
  /-- It is not attributed to anybody. -/
  bare : q.mention? = none ∧ q.speaker? = none ∧ q.canonical? = none

/-- The quotations that the glyphs of a document mark off. -/
structure MarkedQuotes (doc : Document) (quotes : List Quotation) : Prop where
  ranges : doc.GlyphRanges 0 (quotes.map fun q => (q.tokenBegin, q.tokenEnd))
  each : ∀ i q, quotes[i]? = some q → doc.FitsRange i q

theorem fitsRange_iff {i : Nat} {q : Quotation} (encloses : doc.Encloses q.tokenBegin q.tokenEnd) :
    doc.FitsRange i q ↔ doc.quotationOf i q.tokenBegin q.tokenEnd = q := by
  have later := encloses.later
  have inside := encloses.inside
  obtain ⟨first, j, begins⟩ := exists_address (show q.tokenBegin < doc.tokenCount by omega)
  obtain ⟨last, k, ends⟩ := exists_address (show q.tokenEnd - 1 < doc.tokenCount by omega)
  have quotation : doc.quotationOf i q.tokenBegin q.tokenEnd =
      { index := i
        text := doc.textBetween q.tokenBegin q.tokenEnd
        beginChar? := (doc.token? q.tokenBegin).bind Token.beginChar?
        endChar? := (doc.token? (q.tokenEnd - 1)).bind Token.endChar?
        tokenBegin := q.tokenBegin
        tokenEnd := q.tokenEnd
        sentenceBegin := first
        sentenceEnd := last } := by
    rw [quotationOf, begins.locate?, ends.locate?]
    rfl
  rw [quotation]
  constructor
  · rintro ⟨index, text, ⟨j', begins'⟩, ⟨k', ends'⟩, ⟨beginChar, endChar⟩, mention, speaker, canonical⟩
    have sentenceBegin := begins'.locate?
    have sentenceEnd := ends'.locate?
    rw [begins.locate?] at sentenceBegin
    rw [ends.locate?] at sentenceEnd
    obtain ⟨rfl, -⟩ := Prod.mk.inj (Option.some.inj sentenceBegin)
    obtain ⟨rfl, -⟩ := Prod.mk.inj (Option.some.inj sentenceEnd)
    rw [← index, textBetween, ← text, ← beginChar, ← endChar]
    cases q
    cases mention
    cases speaker
    cases canonical
    rfl
  · intro same
    have sentenceBegin : first = q.sentenceBegin := congrArg Quotation.sentenceBegin same
    have sentenceEnd : last = q.sentenceEnd := congrArg Quotation.sentenceEnd same
    exact {
      index := (congrArg Quotation.index same).symm
      text := (congrArg Quotation.text same).symm
      sentenceBegin := ⟨j, sentenceBegin ▸ begins⟩
      sentenceEnd := ⟨k, sentenceEnd ▸ ends⟩
      chars := ⟨(congrArg Quotation.beginChar? same).symm, (congrArg Quotation.endChar? same).symm⟩
      bare := ⟨(congrArg Quotation.mention? same).symm, (congrArg Quotation.speaker? same).symm,
        (congrArg Quotation.canonical? same).symm⟩ }

/-- A row of quotations is the one found exactly if glyphs mark off its ranges, and each quotation of it
is what its range says. -/
theorem markedQuotes_iff {quotes : List Quotation} :
    doc.MarkedQuotes quotes ↔ quotes = doc.detectQuotes := by
  have found := (glyphRanges_quoteRanges doc.tokens.drop_zero).1
  constructor
  · intro marked
    have ranges := marked.ranges.unique found
    refine List.ext_getElem? fun i => ?_
    rw [getElem?_detectQuotes, ← ranges, List.getElem?_map, Option.map_map]
    cases here : quotes[i]? with
    | none => rfl
    | some q =>
      have encloses := marked.ranges.enclosed _ (List.mem_map_of_mem (List.mem_of_getElem? here))
      exact congrArg some ((fitsRange_iff encloses).mp (marked.each i q here)).symm
  · rintro rfl
    rw [← map_range_detectQuotes] at found
    refine ⟨found, fun i q here => ?_⟩
    have encloses := found.enclosed _ (List.mem_map_of_mem (List.mem_of_getElem? here))
    refine (fitsRange_iff encloses).mpr ?_
    rw [getElem?_detectQuotes, Option.map_eq_some_iff] at here
    obtain ⟨r, -, rfl⟩ := here
    rfl

/-! ## Quotations of tokens -/

/-- Of quotations that do not overlap, the one at a token is the one that contains it. -/
theorem quoteAt?_eq_some_iff {quotes : List Quotation} {token k : Nat}
    (disjoint : quotes.Pairwise fun q q' => q.tokenEnd ≤ q'.tokenBegin) :
    quoteAt? quotes token = some k ↔ ∃ q, quotes[k]? = some q ∧ q.containsToken token = true := by
  refine (getLast?_places_eq_some_iff (p := fun q : Quotation => q.containsToken token)).trans
    (and_iff_left_of_imp ?_)
  rintro ⟨q, here, covers⟩ later q' behind there
  by_contra also
  simp only [Quotation.containsToken, Bool.not_eq_false, Bool.and_eq_true, decide_eq_true_eq]
    at covers also
  have same := place_eq_of_disjoint disjoint here there covers also
  omega

/-- What glyphs mark off is found, and nothing else, and each token of the document is assigned to the
quotation that contains it. -/
theorem detectQuotes_marked (doc : Document) (lex : Lexicon) :
    (∀ quotes, doc.MarkedQuotes quotes ↔ quotes = doc.detectQuotes) ∧
      let found : Document := { doc with quotes := doc.detectQuotes }
      (found.context lex).quoteOfToken.length = doc.tokenCount ∧
        ∀ token k, (found.context lex).quoteOfToken[token]? = some (some k) ↔
          ∃ q : Quotation, doc.detectQuotes[k]? = some q ∧ q.containsToken token = true := by
  refine ⟨fun quotes => markedQuotes_iff, ?_⟩
  intro found
  have marked := markedQuotes_iff.mpr (Eq.refl doc.detectQuotes)
  have assigned : (found.context lex).quoteOfToken =
      (List.range doc.tokenCount).map (quoteAt? doc.detectQuotes) := rfl
  rw [assigned]
  refine ⟨by rw [List.length_map, List.length_range], fun token k => ?_⟩
  have disjoint := List.pairwise_map.mp marked.ranges.disjoint
  rw [← quoteAt?_eq_some_iff disjoint, List.getElem?_map]
  by_cases inside : token < doc.tokenCount
  · rw [List.getElem?_range inside, Option.map_some, Option.some.injEq]
  · rw [List.getElem?_eq_none (by rw [List.length_range]; omega)]
    constructor
    · intro assigned
      cases assigned
    · intro last
      obtain ⟨q, here, covers⟩ := (quoteAt?_eq_some_iff disjoint).mp last
      have listed := List.mem_of_getElem? here
      have ends := (marked.ranges.enclosed _ (List.mem_map_of_mem listed)).inside
      have before : token < q.tokenEnd := of_decide_eq_true (Bool.and_eq_true_iff.mp covers).2
      exact absurd (Nat.lt_of_lt_of_le before ends) inside

end Document

end Discourse
