import Discourse.Proofs.Attribution.Cast
import Discourse.Proofs.Dialogue.Paragraphs
/-!
# Sentences that stand in for paragraphs

The context has a paragraph for every token, and for a token without an offset the number of its
sentence stands in.  Along the text neither of the two numbers goes down, so tokens that all have
an offset, or all have none, are in order (`pairwise_of_alike`).  But the two count different
things, and nothing makes them meet where one gives way to the other.  The paragraphs go down
nowhere exactly if, at each place where tokens with offsets and tokens without border on one
another, neither count has run ahead (`NumberingsMeet`); and only then is no quotation in an
earlier paragraph than one before it.
-/

namespace Discourse

/-! ## Paragraphs that go down nowhere -/

namespace Context

variable {ctx : Context}

/-- Whether the paragraphs of the tokens go down nowhere. -/
def Ascends (ctx : Context) : Prop := ctx.paragraphOfToken.Pairwise (· ≤ ·)

/-- Whether no quotation is in an earlier paragraph than one that starts before it. -/
def QuotesFollow (ctx : Context) : Prop :=
  ∀ q q' : Quotation, q.tokenBegin ≤ q'.tokenBegin → ∀ p ∈ ctx.quoteParagraph? q,
    ∀ p' ∈ ctx.quoteParagraph? q', p ≤ p'

theorem Ascends.quotesFollow (ascends : ctx.Ascends) : ctx.QuotesFollow := by
  intro q q' order p here p' there
  obtain ⟨inside, rfl⟩ := List.getElem?_eq_some_iff.mp here
  obtain ⟨inside', rfl⟩ := List.getElem?_eq_some_iff.mp there
  rcases Nat.lt_or_eq_of_le order with before | same
  · exact List.pairwise_iff_getElem.mp ascends _ _ inside inside' before
  · simp only [same, Nat.le_refl]

/-- A quotation may start at any token, so that what holds of quotations holds of tokens. -/
theorem quotesFollow_iff : ctx.QuotesFollow ↔ ctx.Ascends := by
  refine ⟨fun follow => ?_, Ascends.quotesFollow⟩
  refine List.pairwise_iff_getElem.mpr fun i j inside inside' before => ?_
  exact follow { (default : Quotation) with tokenBegin := i }
    { (default : Quotation) with tokenBegin := j } (Nat.le_of_lt before) _
    (List.getElem?_eq_getElem inside) _ (List.getElem?_eq_getElem inside')

end Context

/-! ## Tokens and their sentences -/

section Entries

variable {a b : Token × Nat}

/-- The paragraph of a token of a sentence, for which the sentence stands in. -/
def paragraphIn (entry : Token × Nat) : Nat := entry.1.paragraph?.getD (entry.2 + 1)

/-- Neither the sentences nor the paragraphs go down from one token to another. -/
structure Advances (a b : Token × Nat) : Prop where
  sentences : a.2 ≤ b.2
  paragraphs : ∀ p, a.1.paragraph? = some p → ∀ q, b.1.paragraph? = some q → p ≤ q

/-- Where the paragraphs cease, the sentences are not behind them; where they set in, they are not
behind the sentences. -/
def Meets (a b : Token × Nat) : Prop :=
  (b.1.paragraph? = none → ∀ p ∈ a.1.paragraph?, p ≤ b.2 + 1) ∧
    (a.1.paragraph? = none → ∀ p ∈ b.1.paragraph?, a.2 + 1 ≤ p)

instance : Decidable (Meets a b) :=
  inferInstanceAs (Decidable ((_ → ∀ p ∈ a.1.paragraph?, p ≤ b.2 + 1) ∧
    (_ → ∀ p ∈ b.1.paragraph?, a.2 + 1 ≤ p)))

theorem Advances.le_iff_meets (advances : Advances a b) :
    paragraphIn a ≤ paragraphIn b ↔ Meets a b := by
  have paragraphs := advances.paragraphs
  have sentences := advances.sentences
  rw [paragraphIn, paragraphIn, Meets]
  cases here : a.1.paragraph? <;> cases there : b.1.paragraph? <;> simp
  case none.none => exact sentences
  case some.some p q => exact paragraphs p here q there

theorem Advances.le_of_alike (advances : Advances a b)
    (alike : a.1.paragraph?.isSome = b.1.paragraph?.isSome) : paragraphIn a ≤ paragraphIn b := by
  rw [advances.le_iff_meets, Meets]
  cases here : a.1.paragraph? <;> cases there : b.1.paragraph? <;> simp_all

end Entries

theorem isChain_iff_adjacent {α : Type} {R : α → α → Prop} {l : List α} :
    l.IsChain R ↔ ∀ a b, [a, b] <:+: l → R a b := by
  constructor
  · intro chain a b adjacent
    have pair := List.IsChain.infix chain adjacent
    exact List.isChain_pair.mp pair
  · intro all
    exact (List.isChain_isInfix l).imp all

namespace Document

variable {doc : Document} {lex : Lexicon} {gap : Nat}

/-- Whether the two numberings meet wherever tokens with a paragraph and tokens without border on
one another. -/
def NumberingsMeet (doc : Document) : Prop := doc.tokensWithSentences.IsChain Meets

instance : Decidable doc.NumberingsMeet :=
  inferInstanceAs (Decidable (doc.tokensWithSentences.IsChain Meets))

theorem paragraphOfToken_context (doc : Document) (lex : Lexicon) :
    (doc.context lex).paragraphOfToken = doc.tokensWithSentences.map paragraphIn := rfl

theorem fst_mem_tokens {entry : Token × Nat} (listed : entry ∈ doc.tokensWithSentences) :
    entry.1 ∈ doc.tokens := by
  rw [← map_fst_tokensWithSentences]
  exact List.mem_map_of_mem listed

theorem tokensWithSentences_ascending (doc : Document) :
    doc.tokensWithSentences.Pairwise fun a b => a.2 ≤ b.2 := by
  refine ascending_flatMap_zipIdx doc.sentences ?_
  rintro e _ mem
  obtain ⟨t, -, rfl⟩ := List.mem_map.mp mem
  rfl

theorem pairwise_advances (doc : Document) (gap : Nat) :
    (doc.numbered gap).tokensWithSentences.Pairwise Advances := by
  have paragraphs := doc.numbersOf_numbered_ascending gap
  rw [numbersOf, List.pairwise_filterMap, ← map_fst_tokensWithSentences,
    List.pairwise_map] at paragraphs
  refine ((doc.numbered gap).tokensWithSentences_ascending.and paragraphs).imp ?_
  rintro a b ⟨sentences, paragraphs⟩
  exact { sentences, paragraphs }

/-- Two tokens that both have an offset, or both have none, are in order, whatever lies between. -/
theorem pairwise_of_alike (doc : Document) (gap : Nat) :
    (doc.numbered gap).tokensWithSentences.Pairwise fun a b =>
      a.1.isPlaced = b.1.isPlaced → paragraphIn a ≤ paragraphIn b := by
  refine (doc.pairwise_advances gap).imp_of_mem fun {a b} listed listed' advances alike => ?_
  refine advances.le_of_alike ?_
  rw [isSome_paragraph?_of_mem_numbered (fst_mem_tokens listed), alike,
    isSome_paragraph?_of_mem_numbered (fst_mem_tokens listed')]

theorem ascends_iff_numberingsMeet (doc : Document) (lex : Lexicon) (gap : Nat) :
    ((doc.numbered gap).context lex).Ascends ↔ (doc.numbered gap).NumberingsMeet := by
  rw [Context.Ascends, paragraphOfToken_context, ← List.isChain_iff_pairwise, List.isChain_map,
    NumberingsMeet, isChain_iff_adjacent, isChain_iff_adjacent]
  refine forall_congr' fun a => forall_congr' fun b => forall_congr' fun adjacent => ?_
  have advances := (doc.pairwise_advances gap).sublist adjacent.sublist
  exact (List.pairwise_pair.mp advances).le_iff_meets

/-- Numbering leaves the offsets alone. -/
theorem isPlaced_of_mem_numbered {placed : Bool} (uniform : ∀ t ∈ doc.tokens, t.isPlaced = placed)
    {t : Token} (mem : t ∈ (doc.numbered gap).tokens) : t.isPlaced = placed := by
  have stripped : t.inParagraph none ∈ doc.tokens.map (Token.inParagraph · none) := by
    rw [← doc.map_inParagraph_numbered gap]
    exact List.mem_map_of_mem mem
  obtain ⟨u, listed, same⟩ := List.mem_map.mp stripped
  rw [← uniform u listed]
  exact (congrArg Token.isPlaced same).symm

/-- The numbers of one scheme alone are in order. -/
theorem ascends_of_uniform {placed : Bool} (uniform : ∀ t ∈ doc.tokens, t.isPlaced = placed)
    (lex : Lexicon) (gap : Nat) : ((doc.numbered gap).context lex).Ascends := by
  rw [Context.Ascends, paragraphOfToken_context, List.pairwise_map]
  refine (doc.pairwise_of_alike gap).imp_of_mem fun {a b} listed listed' inOrder => inOrder ?_
  rw [isPlaced_of_mem_numbered uniform (fst_mem_tokens listed),
    isPlaced_of_mem_numbered uniform (fst_mem_tokens listed')]

/-- The tokens with an offset have a paragraph of their own, and for the others the sentence stands
in.  The paragraphs go down nowhere, and those of the quotations with them, exactly if the two
numberings meet wherever tokens with an offset border on tokens without; among tokens of one kind
they go down in no document. -/
theorem paragraphOfToken_ascends_iff {marked : Document} (ok : doc.setParagraphs gap = .ok marked)
    (lex : Lexicon) :
    let ctx := marked.context lex
    (∀ t ∈ marked.tokens, t.paragraph?.isSome = t.isPlaced) ∧
      (ctx.Ascends ↔ marked.NumberingsMeet) ∧ (ctx.QuotesFollow ↔ marked.NumberingsMeet) ∧
      marked.tokensWithSentences.Pairwise (fun a b =>
        a.1.isPlaced = b.1.isPlaced → paragraphIn a ≤ paragraphIn b) ∧
      ∀ placed, (∀ t ∈ doc.tokens, t.isPlaced = placed) → ctx.Ascends := by
  obtain ⟨-, rfl⟩ := setParagraphs_eq_ok_iff.mp ok
  refine ⟨fun _ => isSome_paragraph?_of_mem_numbered, doc.ascends_iff_numberingsMeet lex gap,
    ?_, doc.pairwise_of_alike gap, ?_⟩
  · rw [Context.quotesFollow_iff, ascends_iff_numberingsMeet]
  · exact fun placed uniform => ascends_of_uniform uniform lex gap

/-- A document in which tokens with an offset and tokens without take turns, the second sentence
opens the second paragraph, and the numberings meet each time. -/
theorem paragraphOfToken_ascends_iff_in_step :
    let joe := { Token.ofWord "Joe" "NNP" with beginChar? := some 0, endChar? := some 3 }
    let hi := { Token.ofWord "Hi" "UH" with beginChar? := some 12, endChar? := some 14 }
    let doc := ofSentences "" [{ tokens := [joe, .ofWord "left" "VBD"] },
      { tokens := [hi, .ofWord "there" "RB"] }]
    ∃ marked, doc.setParagraphs 2 = .ok marked ∧
      marked.tokens.map Token.paragraph? = [some 1, none, some 2, none] ∧ marked.NumberingsMeet ∧
      (marked.context default).paragraphOfToken = [1, 1, 2, 2] ∧
      (marked.context default).Ascends ∧ (marked.context default).QuotesFollow := by
  intro joe hi doc
  have ok : doc.setParagraphs 2 = .ok (doc.numbered 2) :=
    setParagraphs_eq_ok_iff.mpr ⟨by decide, rfl⟩
  obtain ⟨-, ascends, follow, -⟩ := paragraphOfToken_ascends_iff ok default
  have meet : (doc.numbered 2).NumberingsMeet := by decide +kernel
  exact ⟨_, ok, by decide +kernel, meet, by decide +kernel, ascends.mpr meet, follow.mpr meet⟩

/-- In a sentence that goes on with a token of the first paragraph after one without an offset, the
paragraphs go down, and of two quotations the later one is in the earlier paragraph. -/
theorem paragraphOfToken_goes_down :
    let joe := { Token.ofWord "Joe" "NNP" with beginChar? := some 0, endChar? := some 3 }
    let early := { Token.ofWord "early" "RB" with beginChar? := some 5 }
    let doc := ofSentences "" [{ tokens := [joe] }, { tokens := [.ofWord "left" "VBD", early] }]
    let first := { (default : Quotation) with tokenBegin := 1, tokenEnd := 2 }
    let second := { (default : Quotation) with tokenBegin := 2, tokenEnd := 3 }
    ∃ marked, doc.setParagraphs 2 = .ok marked ∧
      (marked.context default).paragraphOfToken = [1, 2, 1] ∧ ¬(marked.context default).Ascends ∧
      (marked.context default).quoteParagraph? first = some 2 ∧
      (marked.context default).quoteParagraph? second = some 1 ∧
      ¬(marked.context default).QuotesFollow := by
  intro joe early doc first second
  have ok : doc.setParagraphs 2 = .ok (doc.numbered 2) :=
    setParagraphs_eq_ok_iff.mpr ⟨by decide, rfl⟩
  let ctx := (doc.numbered 2).context default
  have row : ctx.paragraphOfToken = [1, 2, 1] := by decide +kernel
  have falls : ¬ctx.Ascends := by
    rw [Context.Ascends, row]
    decide
  have here : ctx.quoteParagraph? first = some 2 := by
    rw [Context.quoteParagraph?, Context.paragraph?, row]
    rfl
  have there : ctx.quoteParagraph? second = some 1 := by
    rw [Context.quoteParagraph?, Context.paragraph?, row]
    rfl
  exact ⟨_, ok, row, falls, here, there, mt Context.quotesFollow_iff.mp falls⟩

end Document

end Discourse
