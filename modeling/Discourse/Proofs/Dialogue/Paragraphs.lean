import Discourse.Proofs.Dialogue.Numbering
import Mathlib.Data.List.Chain
/-!
# The numbers of paragraphs

The tokens with an offset are numbered from one, and the number grows by one where a token begins
more than the gap behind the end of the token before it (`ParagraphsNumbered`).  So the paragraphs
of a wider gap are unions of those of a narrower one (`ParagraphsMerge`).  All this holds of every
document that is numbered at all, and one is numbered exactly if the gap fits behind its tokens
(`setParagraphs_numbered`).
-/

namespace Discourse

/-- The paragraph of `u` is that of `t`, or the next one if it begins too far behind. -/
def Token.Follows (gap : Nat) (t u : Token) : Prop :=
  ∃ p, t.paragraph? = some p ∧
    u.paragraph? = some (if t.StartsBeyond gap u then p + 1 else p)

/-! ## One token after another -/

/-- The numbers of the paragraphs of a row, token by token. -/
def numbersOf (ts : List Token) : List Nat := ts.filterMap Token.paragraph?

section Marks

variable {gap last : Nat} {before? : Option Token} {t : Token} {rest ts : List Token}

theorem isSome_paragraph?_of_mem_marksAfter (mem : t ∈ (marksAfter gap last before? ts).1) :
    t.paragraph?.isSome = t.isPlaced := by
  induction ts generalizing last before? with
  | nil => cases mem
  | cons x rest ih =>
    by_cases placed : x.isPlaced = true
    · rw [marksAfter_placed placed] at mem
      rcases List.mem_cons.mp mem with rfl | mem
      · exact placed.symm
      · exact ih mem
    · rw [marksAfter_unplaced placed] at mem
      rcases List.mem_cons.mp mem with rfl | mem
      · exact (Bool.eq_false_iff.mpr placed).symm
      · exact ih mem

/-- Each token with an offset follows the one before it. -/
theorem isChain_marksAfter (gap last : Nat) (before? : Option Token) (ts : List Token) :
    ((before?.map (Token.inParagraph · (some last))).toList ++
      (marksAfter gap last before? ts).1.filter Token.isPlaced).IsChain
        (Token.Follows gap) := by
  induction ts generalizing last before? with
  | nil => cases before? <;> simp [marksAfter]
  | cons t rest ih =>
    by_cases placed : t.isPlaced = true
    · have later := ih (numberAfter gap last before? t) (some t)
      rw [marksAfter_placed placed, List.filter_cons, Token.isPlaced_inParagraph, if_pos placed]
      cases before? with
      | none => exact later
      | some v =>
        refine List.isChain_cons_cons.mpr ⟨⟨last, rfl, ?_⟩, later⟩
        simp [numberAfter, Token.inParagraph, Token.StartsBeyond, Token.textEnd?]
    · rw [marksAfter_unplaced placed, List.filter_cons, Token.isPlaced_inParagraph, if_neg placed]
      exact ih last before?

/-- The first token with an offset opens a paragraph. -/
theorem paragraph?_of_first
    (first : t ∈ ((marksAfter gap last none ts).1.filter Token.isPlaced).head?) :
    t.paragraph? = some (last + 1) := by
  induction ts with
  | nil => cases first
  | cons x rest ih =>
    by_cases placed : x.isPlaced = true
    · rw [marksAfter_placed placed, List.filter_cons, Token.isPlaced_inParagraph,
        if_pos placed] at first
      cases first
      rw [Token.inParagraph, numberAfter_none]
    · rw [marksAfter_unplaced placed, List.filter_cons, Token.isPlaced_inParagraph,
        if_neg placed] at first
      exact ih first

/-- From one number to the next there is no step back and none is left out. -/
theorem steps_marksAfter (gap last : Nat) (before? : Option Token) (ts : List Token) :
    (last :: numbersOf (marksAfter gap last before? ts).1).IsChain (fun p q => p ≤ q ∧ q ≤ p + 1) ∧
      (last :: numbersOf (marksAfter gap last before? ts).1).getLast? =
        some (marksAfter gap last before? ts).2 := by
  induction ts generalizing last before? with
  | nil => exact ⟨List.isChain_singleton last, rfl⟩
  | cons t rest ih =>
    by_cases placed : t.isPlaced = true
    · obtain ⟨steps, final⟩ := ih (numberAfter gap last before? t) (some t)
      rw [marksAfter_placed placed]
      refine ⟨List.isChain_cons_cons.mpr ⟨?_, steps⟩, ?_⟩
      · rw [numberAfter]
        split <;> omega
      · exact (List.getLast?_cons_cons ..).trans final
    · rw [marksAfter_unplaced placed]
      exact ih last before?

/-- Numbers that leave none out are all there are from the first to the last. -/
theorem mem_iff_of_steps {n final : Nat} {ns : List Nat}
    (steps : (n :: ns).IsChain fun p q => p ≤ q ∧ q ≤ p + 1)
    (last : (n :: ns).getLast? = some final) {m : Nat} : m ∈ n :: ns ↔ n ≤ m ∧ m ≤ final := by
  induction ns generalizing n m with
  | nil =>
    rw [List.getLast?_singleton, Option.some.injEq] at last
    rw [List.mem_singleton]
    omega
  | cons k rest ih =>
    obtain ⟨step, steps⟩ := List.isChain_cons_cons.mp steps
    have last : (k :: rest).getLast? = some final := (List.getLast?_cons_cons ..).symm.trans last
    have here := (ih steps last).mp List.mem_cons_self
    rw [List.mem_cons, ih steps last]
    omega

theorem pairwise_of_steps {ns : List Nat} (steps : ns.IsChain fun p q => p ≤ q ∧ q ≤ p + 1) :
    ns.Pairwise (· ≤ ·) :=
  (steps.imp fun _ _ step => step.1).pairwise

theorem lt_of_mem_numbersOf {q : Nat} (mem : q ∈ numbersOf (marksAfter gap last none ts).1) :
    last < q := by
  induction ts with
  | nil => cases mem
  | cons t rest ih =>
    by_cases placed : t.isPlaced = true
    · rw [marksAfter_placed placed] at mem
      obtain ⟨steps, final⟩ := steps_marksAfter gap (numberAfter gap last none t) (some t) rest
      have least := ((mem_iff_of_steps steps final).mp mem).1
      rw [numberAfter_none] at least
      exact least
    · rw [marksAfter_unplaced placed] at mem
      exact ih mem

/-- The numbers of a row are those behind `last` up to the final one. -/
theorem mem_numbersOf_marksAfter {p : Nat} :
    p ∈ numbersOf (marksAfter gap last none ts).1 ↔
      last < p ∧ p ≤ (marksAfter gap last none ts).2 := by
  obtain ⟨steps, final⟩ := steps_marksAfter gap last none ts
  have all := mem_iff_of_steps steps final (m := p)
  rw [List.mem_cons] at all
  constructor
  · intro mem
    exact ⟨lt_of_mem_numbersOf mem, (all.mp (.inr mem)).2⟩
  · rintro ⟨low, high⟩
    rcases all.mpr ⟨Nat.le_of_lt low, high⟩ with same | mem
    · omega
    · exact mem

end Marks

/-! ## A wider gap -/

section Wider

variable {gap finer last last' : Nat} {before? : Option Token} {t : Token} {ts : List Token}

/-- The number of the paragraph at a place of a row. -/
def numberAt? (ts : List Token) (i : Nat) : Option Nat := ts[i]?.bind Token.paragraph?

theorem numberAfter_le (narrower : finer ≤ gap) :
    last ≤ numberAfter finer last before? t ∧
      numberAfter gap last' before? t + last ≤ numberAfter finer last before? t + last' := by
  have weaker : (∀ v ∈ before?, v.StartsBeyond gap t) → ∀ v ∈ before?, v.StartsBeyond finer t :=
    fun all v mem => (all v mem).of_le narrower
  rw [numberAfter, numberAfter]
  by_cases apart : ∀ v ∈ before?, v.StartsBeyond gap t
  · rw [if_pos apart, if_pos (weaker apart)]
    omega
  · rw [if_neg apart]
    split <;> omega

/-- From the number before a row the finer numbers grow by no less than the others. -/
theorem number_le_of_narrower (narrower : finer ≤ gap) {i p q : Nat}
    (here : numberAt? (marksAfter finer last before? ts).1 i = some p)
    (here' : numberAt? (marksAfter gap last' before? ts).1 i = some q) :
    last ≤ p ∧ q + last ≤ p + last' := by
  induction ts generalizing last last' before? i with
  | nil => cases here
  | cons t rest ih =>
    by_cases placed : t.isPlaced = true
    · have step := @numberAfter_le gap finer last last' before? t narrower
      rw [marksAfter_placed placed] at here here'
      cases i with
      | zero =>
        cases here
        cases here'
        exact step
      | succ i =>
        have growth := ih here here'
        omega
    · rw [marksAfter_unplaced placed] at here here'
      cases i with
      | zero => cases here
      | succ i => exact ih here here'

/-- From one place of a row to a later one the finer numbers grow by no less than the others. -/
theorem growth_le_of_narrower (narrower : finer ≤ gap) {i j p p' q q' : Nat} (order : i ≤ j)
    (here : numberAt? (marksAfter finer last before? ts).1 i = some p)
    (there : numberAt? (marksAfter finer last before? ts).1 j = some p')
    (here' : numberAt? (marksAfter gap last' before? ts).1 i = some q)
    (there' : numberAt? (marksAfter gap last' before? ts).1 j = some q') :
    p ≤ p' ∧ q' + p ≤ p' + q := by
  induction ts generalizing last last' before? i j with
  | nil => cases here
  | cons t rest ih =>
    by_cases placed : t.isPlaced = true
    · rw [marksAfter_placed placed] at here there here' there'
      cases j with
      | zero =>
        obtain rfl := Nat.le_zero.mp order
        cases here.symm.trans there
        cases here'.symm.trans there'
        exact ⟨Nat.le_refl p, Nat.le_of_eq (Nat.add_comm q p)⟩
      | succ j =>
        cases i with
        | zero =>
          cases here
          cases here'
          exact number_le_of_narrower narrower there there'
        | succ i => exact ih (Nat.le_of_succ_le_succ order) here there here' there'
    · rw [marksAfter_unplaced placed] at here there here' there'
      cases i with
      | zero => cases here
      | succ i =>
        obtain ⟨j, rfl⟩ := Nat.exists_eq_add_of_le' order
        exact ih (Nat.le_of_succ_le_succ order) here there here' there'

theorem isSome_numberAt? (gap last : Nat) (before? : Option Token) (ts : List Token) (i : Nat) :
    (numberAt? (marksAfter gap last before? ts).1 i).isSome = ts[i]?.any Token.isPlaced := by
  induction ts generalizing last before? i with
  | nil => rfl
  | cons t rest ih =>
    by_cases placed : t.isPlaced = true
    · rw [marksAfter_placed placed]
      cases i with
      | zero => exact placed.symm
      | succ i => exact ih _ _ i
    · rw [marksAfter_unplaced placed]
      cases i with
      | zero => exact (Bool.eq_false_iff.mpr placed).symm
      | succ i => exact ih _ _ i

end Wider

/-! ## Documents -/

namespace Document

variable {doc : Document} {gap finer : Nat}

/-- The paragraph of the token with a given number. -/
def paragraphOf? (doc : Document) (token : Nat) : Option Nat :=
  (doc.token? token).bind Token.paragraph?

/-- The document `d` is `doc` with the paragraphs that a gap makes: the tokens with an offset are
numbered from one, and each of them follows the one before it; no number goes down and all are used;
and mentions have the paragraphs of their heads. -/
structure ParagraphsNumbered (doc : Document) (gap : Nat) (d : Document) : Prop where
  unchanged : d.tokens.map (Token.inParagraph · none) = doc.tokens.map (Token.inParagraph · none)
  listed : d.predicted = doc.predicted
  placed : ∀ t ∈ d.tokens, t.paragraph?.isSome = t.beginChar?.isSome
  first : ∀ t ∈ (d.tokens.filter Token.isPlaced).head?, t.paragraph? = some 1
  next : (d.tokens.filter Token.isPlaced).IsChain (Token.Follows gap)
  ascending : (numbersOf d.tokens).Pairwise (· ≤ ·)
  used : ∀ p, p ∈ numbersOf d.tokens ↔ 1 ≤ p ∧ p ≤ d.paragraphs
  heads : ∀ id ∈ d.predicted.flatten, ∀ m, d.mention? id = some m →
    m.paragraph? = (d.headToken? m).bind Token.paragraph?

/-- What is in one paragraph of a document is in one paragraph of another. -/
def ParagraphsMerge (fine coarse : Document) : Prop :=
  ∀ i j p, fine.paragraphOf? i = some p → fine.paragraphOf? j = some p →
    ∃ q, coarse.paragraphOf? i = some q ∧ coarse.paragraphOf? j = some q

theorem paragraphs_numbered (doc : Document) (gap : Nat) :
    (doc.numbered gap).paragraphs = (marksAfter gap 0 none doc.tokens).2 := rfl

theorem predicted_numbered (doc : Document) (gap : Nat) :
    (doc.numbered gap).predicted = doc.predicted := by
  obtain ⟨mentions, paragraphs, eq⟩ := doc.numbered_eq gap
  rw [eq]
  rfl

theorem paragraphOf?_numbered (doc : Document) (gap token : Nat) :
    (doc.numbered gap).paragraphOf? token =
      numberAt? (marksAfter gap 0 none doc.tokens).1 token := by
  rw [paragraphOf?, token?, tokens_numbered]
  rfl

theorem headToken?_numbered (doc : Document) (gap : Nat) :
    (doc.numbered gap).headToken? =
      (doc.withTokens (marksAfter gap 0 none doc.tokens).1).headToken? := by
  obtain ⟨mentions, paragraphs, eq⟩ := doc.numbered_eq gap
  rw [eq]
  rfl

theorem mention?_numbered (byId : doc.MentionsById) (gap : Nat) {id : MentionId}
    (listed : id ∈ doc.predicted.flatten) :
    (doc.numbered gap).mention? id = (doc.mention? id).map fun m =>
      { m with paragraph? := ((doc.numbered gap).headToken? m).bind Token.paragraph? } := by
  have marked := @mention?_markHeads (doc.withTokens (marksAfter gap 0 none doc.tokens).1) byId
    (fun head? m => { m with paragraph? := head?.bind Token.paragraph? }) (fun _ _ => rfl) id
  rw [if_pos (show id ∈ (doc.withTokens _).predicted.flatten from listed)] at marked
  rw [headToken?_numbered]
  exact marked

theorem isSome_paragraph?_of_mem_numbered {t : Token} (mem : t ∈ (doc.numbered gap).tokens) :
    t.paragraph?.isSome = t.isPlaced := by
  rw [tokens_numbered] at mem
  exact isSome_paragraph?_of_mem_marksAfter mem

theorem numbersOf_numbered_ascending (doc : Document) (gap : Nat) :
    (numbersOf (doc.numbered gap).tokens).Pairwise (· ≤ ·) := by
  rw [tokens_numbered]
  exact (pairwise_of_steps (steps_marksAfter gap 0 none doc.tokens).1).of_cons

/-- With sums of any size the paragraphs of every document are numbered. -/
theorem paragraphsNumbered_numbered (byId : doc.MentionsById) (gap : Nat) :
    doc.ParagraphsNumbered gap (doc.numbered gap) where
  unchanged := doc.map_inParagraph_numbered gap
  listed := doc.predicted_numbered gap
  placed := fun _ mem => isSome_paragraph?_of_mem_numbered mem
  first := fun t first => by
    rw [tokens_numbered] at first
    exact paragraph?_of_first first
  next := by
    rw [tokens_numbered]
    exact isChain_marksAfter gap 0 none doc.tokens
  ascending := numbersOf_numbered_ascending doc gap
  used := fun p => by
    rw [tokens_numbered, paragraphs_numbered]
    exact mem_numbersOf_marksAfter
  heads := fun id listed m found => by
    rw [predicted_numbered] at listed
    rw [mention?_numbered byId gap listed] at found
    obtain ⟨m', -, rfl⟩ := Option.map_eq_some_iff.mp found
    rfl

/-- The paragraphs of a narrower gap stay together. -/
theorem paragraphsMerge_numbered (doc : Document) (narrower : finer ≤ gap) :
    (doc.numbered finer).ParagraphsMerge (doc.numbered gap) := by
  have merged : ∀ i j p, i ≤ j → (doc.numbered finer).paragraphOf? i = some p →
      (doc.numbered finer).paragraphOf? j = some p →
        ∃ q, (doc.numbered gap).paragraphOf? i = some q ∧
          (doc.numbered gap).paragraphOf? j = some q := by
    intro i j p order here there
    rw [paragraphOf?_numbered] at here there
    have placed (k : Nat) (number : numberAt? (marksAfter finer 0 none doc.tokens).1 k = some p) :
        ∃ q, numberAt? (marksAfter gap 0 none doc.tokens).1 k = some q := by
      rw [← Option.isSome_iff_exists, isSome_numberAt?, ← isSome_numberAt? finer 0 none, number]
      rfl
    obtain ⟨q, here'⟩ := placed i here
    obtain ⟨q', there'⟩ := placed j there
    have up := (growth_le_of_narrower (Nat.le_refl gap) order here' there' here' there').1
    have growth := (growth_le_of_narrower narrower order here there here' there').2
    obtain rfl : q = q' := by omega
    rw [paragraphOf?_numbered, paragraphOf?_numbered]
    exact ⟨q, here', there'⟩
  intro i j p here there
  rcases Nat.le_total i j with order | order
  · exact merged i j p order here there
  · obtain ⟨q, there', here'⟩ := merged j i p order there here
    exact ⟨q, here', there'⟩

/-- A document is numbered exactly if the gap fits behind its tokens, and nothing but a sum that is
too large stands in the way.  Then its paragraphs are those of the gaps in the text, and a narrower
gap fits too and makes paragraphs of which those of the wider gap are unions. -/
theorem setParagraphs_numbered (doc : Document) (byId : doc.MentionsById) (gap : Nat) :
    ((∃ d, doc.setParagraphs gap = .ok d) ↔ doc.GapFits gap) ∧
      (∀ stop, doc.setParagraphs gap = .error stop ↔ ¬doc.GapFits gap ∧ stop = .overflow) ∧
      ∀ d, doc.setParagraphs gap = .ok d → doc.ParagraphsNumbered gap d ∧
        ∀ finer ≤ gap, ∃ fine, doc.setParagraphs finer = .ok fine ∧ fine.ParagraphsMerge d := by
  refine ⟨?_, fun stop => setParagraphs_eq_error_iff, fun d ok => ?_⟩
  · simp only [setParagraphs_eq_ok_iff, exists_and_left, exists_eq', and_true]
  · obtain ⟨fits, rfl⟩ := setParagraphs_eq_ok_iff.mp ok
    refine ⟨paragraphsNumbered_numbered byId gap, fun finer narrower => ?_⟩
    exact ⟨_, setParagraphs_eq_ok_iff.mpr ⟨fits.of_le narrower, rfl⟩,
      doc.paragraphsMerge_numbered narrower⟩

/-- Two paragraphs in two sentences, with a token that has no offset, one that has no end, and a
mention. -/
theorem setParagraphs_numbered_two_paragraphs :
    let joe := { Token.ofWord "Joe" "NNP" with beginChar? := some 0, endChar? := some 3 }
    let left := { Token.ofWord "left" "VBD" with beginChar? := some 5 }
    let he := { Token.ofWord "he" "PRP" with beginChar? := some 9, endChar? := some 11 }
    let read := ofSentences "" [{ tokens := [joe, .ofWord "has" "VBZ", left] }, { tokens := [he] }]
    let doc := read.addMention
      { id := 0, sentence := 1, start := 0, stop := 1, head := 0, text := "he" }
    doc.MentionsById ∧ doc.GapFits 2 ∧ ∃ d, doc.setParagraphs 2 = .ok d ∧
      d.tokens.map Token.paragraph? = [some 1, none, some 1, some 2] ∧
      (d.mention? 0).bind Mention.paragraph? = some 2 ∧ doc.ParagraphsNumbered 2 d ∧
      ∀ finer ≤ 2, ∃ fine, doc.setParagraphs finer = .ok fine ∧ fine.ParagraphsMerge d := by
  intro joe left he read doc
  have byId : doc.MentionsById := by
    refine MentionsById.addMention ?_ _
    intro id m found
    cases found
  have fits : doc.GapFits 2 := by decide
  obtain ⟨succeeds, -, holds⟩ := doc.setParagraphs_numbered byId 2
  obtain ⟨d, ok⟩ := succeeds.mpr fits
  obtain ⟨-, rfl⟩ := setParagraphs_eq_ok_iff.mp ok
  exact ⟨byId, fits, _, ok, by decide +kernel, by decide +kernel, holds _ ok⟩

/-- With the widest gap of all, two words with a space between them are not numbered at all, though
the second begins within the gap. -/
theorem setParagraphs_widest_gap :
    let joe := { Token.ofWord "Joe" "NNP" with beginChar? := some 0, endChar? := some 3 }
    let left := { Token.ofWord "left" "VBD" with beginChar? := some 4, endChar? := some 8 }
    let doc := ofSentences "" [{ tokens := [joe, left] }]
    doc.MentionsById ∧ ¬joe.StartsBeyond (wordLimit - 1) left ∧
      doc.setParagraphs (wordLimit - 1) = .error .overflow ∧
      ¬∃ d, doc.setParagraphs (wordLimit - 1) = .ok d ∧
        doc.ParagraphsNumbered (wordLimit - 1) d := by
  intro joe left doc
  have stopped : doc.setParagraphs (wordLimit - 1) = .error .overflow :=
    setParagraphs_eq_error_iff.mpr ⟨by decide, rfl⟩
  have byId : doc.MentionsById := fun id m found => by cases found
  refine ⟨byId, by decide, stopped, ?_⟩
  rintro ⟨d, ok, -⟩
  cases stopped.symm.trans ok

end Document

end Discourse
