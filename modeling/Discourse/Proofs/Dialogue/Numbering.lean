import Discourse.Dialogue.Paragraph
import Discourse.Proofs.Dialogue.Speaking
/-!
# Numbering by sums of any size

To number paragraphs, the gap is added to the end of each token with an offset that another such
token follows, and the work ends where the sum is no word.  `marksAfter` is the same numbering with
sums of any size.  So the paragraphs are those of the true sums or there are none at all
(`paragraphMarks_eq`), and the ends of the tokens tell which (`GapFits`).
-/

namespace Discourse

namespace Token

variable {gap finer : Nat} {t u : Token}

/-- A token with a paragraph, or without one. -/
def inParagraph (t : Token) (paragraph? : Option Nat) : Token := { t with paragraph? }

/-- Whether a token has an offset. -/
def isPlaced (t : Token) : Bool := t.beginChar?.isSome

/-- Where the text of a token ends; where it begins if nothing is known of the end. -/
def textEnd? (t : Token) : Option Nat := t.beginChar?.map fun start => t.endChar?.getD start

/-- Whether the end of a token and the gap add up to a word. -/
def EndFits (gap : Nat) (t : Token) : Prop := ∀ stop ∈ t.textEnd?, stop + gap < wordLimit

instance : Decidable (EndFits gap t) :=
  inferInstanceAs (Decidable (∀ stop ∈ t.textEnd?, stop + gap < wordLimit))

/-- Whether `u` begins more than `gap` behind the end of `t`. -/
def StartsBeyond (gap : Nat) (t u : Token) : Prop :=
  ∀ stop ∈ t.textEnd?, ∀ start ∈ u.beginChar?, stop + gap < start

instance : Decidable (StartsBeyond gap t u) :=
  inferInstanceAs (Decidable (∀ stop ∈ t.textEnd?, ∀ start ∈ u.beginChar?, stop + gap < start))

theorem isPlaced_iff : t.isPlaced = true ↔ ∃ start, t.beginChar? = some start :=
  Option.isSome_iff_exists

@[simp]
theorem isPlaced_inParagraph (paragraph? : Option Nat) :
    (t.inParagraph paragraph?).isPlaced = t.isPlaced := rfl

theorem EndFits.of_le (fits : t.EndFits gap) (narrower : finer ≤ gap) : t.EndFits finer :=
  fun stop ends => Nat.lt_of_le_of_lt (Nat.add_le_add_left narrower stop) (fits stop ends)

theorem StartsBeyond.of_le (beyond : t.StartsBeyond gap u) (narrower : finer ≤ gap) :
    t.StartsBeyond finer u := fun stop ends start begins =>
  Nat.lt_of_le_of_lt (Nat.add_le_add_left narrower stop) (beyond stop ends start begins)

end Token

/-! ## Rows of tokens -/

/-- The number of a token, when `last` is the number of the token with an offset before it. -/
def numberAfter (gap last : Nat) (before? : Option Token) (t : Token) : Nat :=
  if ∀ v ∈ before?, v.StartsBeyond gap t then last + 1 else last

@[simp]
theorem numberAfter_none (gap last : Nat) (t : Token) : numberAfter gap last none t = last + 1 := by
  simp [numberAfter]

/-- A row of tokens behind one with an offset, numbered by sums of any size. -/
def marksAfter (gap last : Nat) (before? : Option Token) : List Token → List Token × Nat
  | [] => ([], last)
  | t :: rest =>
    if t.isPlaced then
      let number := numberAfter gap last before? t
      let (marked, final) := marksAfter gap number (some t) rest
      (t.inParagraph (some number) :: marked, final)
    else
      let (marked, final) := marksAfter gap last before? rest
      (t.inParagraph none :: marked, final)

/-- Whether the gap fits behind every token with an offset, the last one apart. -/
def SumsFit (gap : Nat) (before? : Option Token) (ts : List Token) : Prop :=
  ∀ t ∈ (before?.toList ++ ts.filter Token.isPlaced).dropLast, t.EndFits gap

instance (gap : Nat) (before? : Option Token) (ts : List Token) :
    Decidable (SumsFit gap before? ts) :=
  inferInstanceAs (Decidable (∀ t ∈ _, Token.EndFits gap t))

section Rows

variable {gap last : Nat} {before? : Option Token} {t : Token} {rest : List Token}

theorem marksAfter_unplaced (unplaced : t.isPlaced ≠ true) :
    marksAfter gap last before? (t :: rest) =
      (t.inParagraph none :: (marksAfter gap last before? rest).1,
        (marksAfter gap last before? rest).2) := by
  rw [marksAfter, if_neg unplaced]

theorem marksAfter_placed (placed : t.isPlaced = true) :
    marksAfter gap last before? (t :: rest) =
      (t.inParagraph (some (numberAfter gap last before? t)) ::
          (marksAfter gap (numberAfter gap last before? t) (some t) rest).1,
        (marksAfter gap (numberAfter gap last before? t) (some t) rest).2) := by
  rw [marksAfter, if_pos placed]

/-- Nothing but the paragraphs changes. -/
theorem map_inParagraph_marksAfter (gap last : Nat) (before? : Option Token) (ts : List Token) :
    (marksAfter gap last before? ts).1.map (Token.inParagraph · none) =
      ts.map (Token.inParagraph · none) := by
  induction ts generalizing last before? with
  | nil => rfl
  | cons t rest ih =>
    by_cases placed : t.isPlaced = true
    · rw [marksAfter_placed placed, List.map_cons, ih, List.map_cons]
      rfl
    · rw [marksAfter_unplaced placed, List.map_cons, ih, List.map_cons]
      rfl

theorem sumsFit_unplaced (unplaced : t.isPlaced ≠ true) :
    SumsFit gap before? (t :: rest) ↔ SumsFit gap before? rest := by
  rw [SumsFit, List.filter_cons_of_neg unplaced, SumsFit]

theorem sumsFit_placed (placed : t.isPlaced = true) :
    SumsFit gap before? (t :: rest) ↔
      (∀ v ∈ before?, v.EndFits gap) ∧ SumsFit gap (some t) rest := by
  rw [SumsFit, List.filter_cons_of_pos placed,
    List.dropLast_append_of_ne_nil (List.cons_ne_nil _ _), List.forall_mem_append]
  simp only [Option.mem_toList]
  rfl

theorem paragraphMarks_unplaced {end? : Option Nat} (unplaced : t.isPlaced ≠ true) :
    paragraphMarks gap last end? (t :: rest) =
      (paragraphMarks gap last end? rest).map fun next =>
        (t.inParagraph none :: next.1, next.2) := by
  obtain ⟨word, baseForm, pos, ner, begin?, stop?, utterance?, speaker?, paragraph?, entity?⟩ := t
  obtain rfl : begin? = none := Option.not_isSome_iff_eq_none.mp unplaced
  rw [paragraphMarks]
  cases paragraphMarks gap last end? rest <;> rfl

theorem paragraphMarks_placed {end? : Option Nat} {start : Nat}
    (begins : t.beginChar? = some start) :
    paragraphMarks gap last end? (t :: rest) =
      opensParagraph gap end? start >>= fun opens =>
        let number := if opens then last + 1 else last
        (paragraphMarks gap number t.textEnd? rest).map fun next =>
          (t.inParagraph (some number) :: next.1, next.2) := by
  obtain ⟨word, baseForm, pos, ner, begin?, stop?, utterance?, speaker?, paragraph?, entity?⟩ := t
  obtain rfl : begin? = some start := begins
  rw [paragraphMarks]
  refine bind_congr fun opens => ?_
  dsimp only [Token.textEnd?, Option.map_some]
  cases paragraphMarks gap (if opens then last + 1 else last) (some (stop?.getD start)) rest <;> rfl

/-- Where the sum is a word it decides whether a paragraph is opened. -/
theorem opensParagraph_eq (before? : Option Token) {start : Nat}
    (begins : t.beginChar? = some start) :
    opensParagraph gap (before?.bind Token.textEnd?) start =
      if ∀ v ∈ before?, v.EndFits gap then .ok (decide (∀ v ∈ before?, v.StartsBeyond gap t))
      else .error .overflow := by
  cases before? with
  | none => simp [opensParagraph]
  | some v =>
    simp only [Option.bind_some, Option.mem_some_iff, forall_eq', Token.EndFits,
      Token.StartsBeyond, begins]
    cases v.textEnd? with
    | none => simp [opensParagraph]
    | some stop =>
      simp only [Option.mem_some_iff, forall_eq', opensParagraph, addOffset]
      split <;> rfl

/-- The paragraphs of a row are those of the true sums, if all of these are words. -/
theorem paragraphMarks_eq (gap last : Nat) (before? : Option Token) (ts : List Token) :
    paragraphMarks gap last (before?.bind Token.textEnd?) ts =
      if SumsFit gap before? ts then .ok (marksAfter gap last before? ts)
      else .error .overflow := by
  induction ts generalizing last before? with
  | nil => exact (if_pos (by cases before? <;> simp [SumsFit])).symm
  | cons t rest ih =>
    by_cases placed : t.isPlaced = true
    · obtain ⟨start, begins⟩ := Token.isPlaced_iff.mp placed
      have later (number : Nat) : paragraphMarks gap number t.textEnd? rest =
          if SumsFit gap (some t) rest then .ok (marksAfter gap number (some t) rest)
          else .error .overflow := ih number (some t)
      have number : (if decide (∀ v ∈ before?, v.StartsBeyond gap t) then last + 1 else last) =
          numberAfter gap last before? t := by
        simp only [decide_eq_true_eq, numberAfter]
      rw [paragraphMarks_placed begins, opensParagraph_eq before? begins, marksAfter_placed placed]
      simp only [sumsFit_placed placed]
      by_cases fits : ∀ v ∈ before?, v.EndFits gap
      · rw [if_pos fits]
        dsimp only [bind, Except.bind]
        rw [number, later]
        by_cases fit : SumsFit gap (some t) rest
        · rw [if_pos fit, if_pos ⟨fits, fit⟩]
          rfl
        · rw [if_neg fit, if_neg fun both => fit both.2]
          rfl
      · rw [if_neg fits, if_neg fun both => fits both.1]
        rfl
    · rw [paragraphMarks_unplaced placed, ih, marksAfter_unplaced placed]
      simp only [sumsFit_unplaced placed]
      split <;> rfl

end Rows

/-! ## Documents -/

namespace Document

variable {doc d : Document} {gap finer : Nat}

/-- The document with its paragraphs numbered by sums of any size. -/
def numbered (doc : Document) (gap : Nat) : Document :=
  doc.inParagraphs (marksAfter gap 0 none doc.tokens)

theorem numbered_eq (doc : Document) (gap : Nat) : ∃ mentions paragraphs, doc.numbered gap =
    { doc.withTokens (marksAfter gap 0 none doc.tokens).1 with mentions, paragraphs } := by
  have heads := (doc.withTokens (marksAfter gap 0 none doc.tokens).1).markHeads_eq
    fun head? m => { m with paragraph? := head?.bind Token.paragraph? }
  exact ⟨_, _, congrArg (fun d : Document =>
    { d with paragraphs := (marksAfter gap 0 none doc.tokens).2 }) heads⟩

theorem tokens_numbered (doc : Document) (gap : Nat) :
    (doc.numbered gap).tokens = (marksAfter gap 0 none doc.tokens).1 := by
  obtain ⟨mentions, paragraphs, eq⟩ := doc.numbered_eq gap
  rw [eq]
  refine flatMap_dealTokens ?_
  have lengths := congrArg List.length (map_inParagraph_marksAfter gap 0 none doc.tokens)
  rw [List.length_map, List.length_map] at lengths
  exact lengths.trans (length_flatMap_tokens doc.sentences)

theorem map_inParagraph_numbered (doc : Document) (gap : Nat) :
    (doc.numbered gap).tokens.map (Token.inParagraph · none) =
      doc.tokens.map (Token.inParagraph · none) := by
  rw [tokens_numbered]
  exact map_inParagraph_marksAfter gap 0 none doc.tokens

/-- Whether the gap fits behind every token with an offset, the last one apart. -/
def GapFits (doc : Document) (gap : Nat) : Prop :=
  ∀ t ∈ (doc.tokens.filter Token.isPlaced).dropLast, t.EndFits gap

instance : Decidable (doc.GapFits gap) :=
  inferInstanceAs (Decidable (∀ t ∈ _, Token.EndFits gap t))

theorem GapFits.of_le (fits : doc.GapFits gap) (narrower : finer ≤ gap) : doc.GapFits finer :=
  fun t mem => (fits t mem).of_le narrower

theorem setParagraphs_eq (doc : Document) (gap : Nat) : doc.setParagraphs gap =
    if doc.GapFits gap then .ok (doc.numbered gap) else .error .overflow := by
  have marks : paragraphMarks gap 0 none doc.tokens =
      if doc.GapFits gap then .ok (marksAfter gap 0 none doc.tokens) else .error .overflow :=
    paragraphMarks_eq gap 0 none doc.tokens
  rw [setParagraphs, marks]
  split <;> rfl

theorem setParagraphs_eq_ok_iff :
    doc.setParagraphs gap = .ok d ↔ doc.GapFits gap ∧ doc.numbered gap = d := by
  rw [setParagraphs_eq]
  split <;> simp [*]

theorem setParagraphs_eq_error_iff {stop : Stop} :
    doc.setParagraphs gap = .error stop ↔ ¬doc.GapFits gap ∧ stop = .overflow := by
  rw [setParagraphs_eq]
  split <;> simp [*, eq_comm]

end Document

end Discourse
