import Discourse.Dialogue.Utterance
import Discourse.Proofs.Address
/-!
# Minting utterances

The machine counts up from the largest utterance that it has read.  It also gives out one number
that it has not read: a glyph that opens a quotation at a change of speaker gets the utterance
outside, one above the utterance of what it quotes.  The largest utterance catches up with that
number when the quotation is closed.  Until then the glyph stands (`GlyphStands`), and the next
utterance minted is not new but the one of the glyph.
-/

namespace Discourse

theorem isOpeningGlyph_iff (word : String) :
    isOpeningGlyph word = true ↔ word = "``" ∨ word = "\u201c" ∨ word = "\u2018\u2018" := by
  simp [isOpeningGlyph, or_assoc]

namespace UtteranceState

/-- Whether an utterance is minted at a token. -/
def mints (st : UtteranceState) (t : Token) : Bool := (st.hear t).changesSpeaker t || st.opens t

/-- Whether the speaker changes at a token that opens a quotation. -/
def turnsAtGlyph (st : UtteranceState) (t : Token) : Bool :=
  (st.hear t).changesSpeaker t && st.opens t

/-- The state after some tokens. -/
def after (st : UtteranceState) (tokens : List Token) : UtteranceState := (st.run tokens).2

theorem run_cons (st : UtteranceState) (t : Token) (rest : List Token) :
    st.run (t :: rest) =
      ((st.step t).1 :: ((st.step t).2.run rest).1, ((st.step t).2.run rest).2) := rfl

theorem run_append (st : UtteranceState) (xs ys : List Token) :
    st.run (xs ++ ys) =
      ((st.run xs).1 ++ ((st.after xs).run ys).1, ((st.after xs).run ys).2) := by
  induction xs generalizing st with
  | nil => rfl
  | cons t rest ih =>
    rw [List.cons_append, run_cons, ih]
    rfl

theorem after_append (st : UtteranceState) (xs ys : List Token) :
    st.after (xs ++ ys) = (st.after xs).after ys := by
  rw [after, run_append]
  rfl

theorem length_run (st : UtteranceState) (tokens : List Token) :
    (st.run tokens).1.length = tokens.length := by
  induction tokens generalizing st with
  | nil => rfl
  | cons t rest ih =>
    rw [run_cons, List.length_cons, List.length_cons, ih]

/-! ## One token -/

theorem not_closes_of_opens {st : UtteranceState} {t : Token} (opens : st.opens t = true) :
    st.closes t = false := by
  simp only [UtteranceState.opens, Bool.or_eq_true, Bool.and_eq_true, isOpeningGlyph_iff,
    Bool.not_eq_true', isNeutralGlyph, beq_iff_eq] at opens
  rcases opens with (word | word | word) | ⟨outside, word⟩
  · simp [closes, word, isClosingGlyph, isNeutralGlyph]
  · simp [closes, word, isClosingGlyph, isNeutralGlyph]
  · simp [closes, word, isClosingGlyph, isNeutralGlyph]
  · simp [closes, word, isClosingGlyph, outside]

/-- What a token does to the numbers of a state, with the utterance that it gets. -/
inductive Moved (st : UtteranceState) (t : Token) : Token → UtteranceState → Prop
  | turnAtGlyph {m : Token} {st' : UtteranceState} : st.turnsAtGlyph t = true →
      m.utterance = st.largest + 2 → st'.current = st.largest + 1 →
      st'.outside = st.largest + 2 → st'.largest = st.largest + 1 → Moved st t m st'
  | turn {m : Token} {st' : UtteranceState} : st.mints t = true → st.opens t = false →
      m.utterance = st.largest + 1 → st'.current = st.largest + 1 →
      st'.outside = st.largest + 1 → st'.largest = st.largest + 1 → Moved st t m st'
  | glyph {m : Token} {st' : UtteranceState} : st.mints t = true → st.turnsAtGlyph t = false →
      m.utterance = st.outside → st'.current = st.largest + 1 →
      st'.outside = st.outside → st'.largest = st.largest + 1 → Moved st t m st'
  | close {m : Token} {st' : UtteranceState} : st.mints t = false → st.closes t = true →
      m.utterance = st.outside → st'.current = st.outside →
      st'.outside = st.outside → st'.largest = max st.largest st.outside → Moved st t m st'
  | quiet {m : Token} {st' : UtteranceState} : st.mints t = false → st.closes t = false →
      m.utterance = st.current → st'.current = st.current →
      st'.outside = st.outside → st'.largest = max st.largest st.current → Moved st t m st'

section Hear

variable (st : UtteranceState) (t : Token)

@[simp]
theorem opens_hear : (st.hear t).opens t = st.opens t := rfl

@[simp]
theorem current_hear : (st.hear t).current = st.current := rfl

@[simp]
theorem outside_hear : (st.hear t).outside = st.outside := rfl

@[simp]
theorem largest_hear : (st.hear t).largest = st.largest := rfl

end Hear

theorem step_moved (st : UtteranceState) (t : Token) :
    st.Moved t (st.step t).1 (st.step t).2 := by
  cases changes : (st.hear t).changesSpeaker t with
  | true =>
    have mints : st.mints t = true := by simp [UtteranceState.mints, changes]
    cases opens : st.opens t with
    | true =>
      have closes := not_closes_of_opens opens
      have turns : st.turnsAtGlyph t = true := by simp [turnsAtGlyph, changes, opens]
      refine .turnAtGlyph turns ?_ ?_ ?_ ?_
      all_goals simp [step, mint, leave, changes, closes, opens, Token.utterance]
    | false =>
      -- a closing glyph leads back to the utterance just minted
      refine .turn mints opens ?_ ?_ ?_ ?_
      all_goals cases closes : st.closes t <;>
        simp [step, mint, leave, changes, closes, opens, Token.utterance]
  | false =>
    cases opens : st.opens t with
    | true =>
      have closes := not_closes_of_opens opens
      have mints : st.mints t = true := by simp [UtteranceState.mints, opens]
      have turns : st.turnsAtGlyph t = false := by simp [turnsAtGlyph, changes]
      refine .glyph mints turns ?_ ?_ ?_ ?_
      all_goals simp [step, mint, leave, changes, closes, opens, Token.utterance]
    | false =>
      have mints : st.mints t = false := by simp [UtteranceState.mints, changes, opens]
      cases closes : st.closes t with
      | true =>
        refine .close mints closes ?_ ?_ ?_ ?_
        all_goals simp [step, mint, leave, changes, closes, opens, Token.utterance]
      | false =>
        refine .quiet mints closes ?_ ?_ ?_ ?_
        all_goals simp [step, mint, leave, changes, closes, opens, Token.utterance]

/-- A token at which nothing is minted and no quotation is closed. -/
def isQuietAt (st : UtteranceState) (t : Token) : Bool := !st.mints t && !st.closes t

/-- Some tokens at which nothing is minted and no quotation is closed. -/
def quiet (st : UtteranceState) : List Token → Bool
  | [] => true
  | t :: rest => st.isQuietAt t && (st.step t).2.quiet rest

/-! ## Runs -/

/-- The utterance being read is known, and the one outside is at most one above all that are. -/
structure Bounded (st : UtteranceState) : Prop where
  current : st.current ≤ st.largest
  outside : st.outside ≤ st.largest + 1

theorem Moved.bounded {st st' : UtteranceState} {t m : Token} (h : st.Bounded)
    (moved : st.Moved t m st') : st'.Bounded := by
  obtain ⟨current, outside⟩ := h
  cases moved with
  | turnAtGlyph _ _ current' outside' largest' => exact ⟨by omega, by omega⟩
  | turn _ _ _ current' outside' largest' => exact ⟨by omega, by omega⟩
  | glyph _ _ _ current' outside' largest' => exact ⟨by omega, by omega⟩
  | close _ _ _ current' outside' largest' => exact ⟨by omega, by omega⟩
  | quiet _ _ _ current' outside' largest' => exact ⟨by omega, by omega⟩

theorem Bounded.after {st : UtteranceState} (h : st.Bounded) (tokens : List Token) :
    (st.after tokens).Bounded := by
  induction tokens generalizing st with
  | nil => exact h
  | cons t rest ih => exact ih ((st.step_moved t).bounded h)

theorem Moved.largest_le {st st' : UtteranceState} {t m : Token} (moved : st.Moved t m st') :
    st.largest ≤ st'.largest := by
  cases moved <;> omega

theorem largest_le_after (st : UtteranceState) (tokens : List Token) :
    st.largest ≤ (st.after tokens).largest := by
  induction tokens generalizing st with
  | nil => exact Nat.le_refl st.largest
  | cons t rest ih => exact Nat.le_trans (st.step_moved t).largest_le (ih (st.step t).2)

section Quiet

variable {st st' : UtteranceState} {t m : Token}

theorem mints_of_turnsAtGlyph (turns : st.turnsAtGlyph t = true) : st.mints t = true := by
  obtain ⟨changes, -⟩ := Bool.and_eq_true_iff.mp turns
  rw [mints, changes, Bool.true_or]

theorem isQuietAt_iff : st.isQuietAt t = true ↔ st.mints t = false ∧ st.closes t = false := by
  simp [isQuietAt]

theorem Moved.of_quiet (moved : st.Moved t m st') (known : st.current ≤ st.largest)
    (quiet : st.isQuietAt t = true) :
    st'.current = st.current ∧ st'.outside = st.outside ∧ st'.largest = st.largest := by
  obtain ⟨still, stays⟩ := isQuietAt_iff.mp quiet
  cases moved with
  | turnAtGlyph turns => simp [mints_of_turnsAtGlyph turns] at still
  | turn mints => simp [mints] at still
  | glyph mints => simp [mints] at still
  | close _ closes => simp [closes] at stays
  | quiet _ _ _ current' outside' largest' => exact ⟨current', outside', by omega⟩

theorem Moved.of_not_quiet (moved : st.Moved t m st') (above : st.outside = st.largest + 1)
    (loud : st.isQuietAt t = false) : st.largest < st'.largest := by
  cases moved with
  | turnAtGlyph => omega
  | turn => omega
  | glyph => omega
  | close => omega
  | quiet mints closes => simp [isQuietAt, mints, closes] at loud

end Quiet

/-- While the number outside lies above all that have been read, these grow with the first token
that mints an utterance or closes a quotation. -/
theorem largest_after_eq_iff {st : UtteranceState} (known : st.current ≤ st.largest)
    (above : st.outside = st.largest + 1) (tokens : List Token) :
    (st.after tokens).largest = st.largest ↔ st.quiet tokens = true := by
  induction tokens generalizing st with
  | nil => exact iff_of_true rfl rfl
  | cons t rest ih =>
    show ((st.step t).2.after rest).largest = st.largest ↔
      (st.isQuietAt t && (st.step t).2.quiet rest) = true
    have moved := st.step_moved t
    have later := largest_le_after (st.step t).2 rest
    generalize st.step t = next at moved later
    cases quiet : st.isQuietAt t with
    | true =>
      obtain ⟨current', outside', largest'⟩ := moved.of_quiet known quiet
      rw [Bool.true_and, ← ih (by omega) (by omega), largest']
    | false =>
      have grows := moved.of_not_quiet above quiet
      rw [Bool.false_and]
      exact iff_of_false (by omega) Bool.false_ne_true

/-- The speaker changed at a token that opened a quotation, and since then no utterance was minted
and no quotation closed. -/
def GlyphStands (st : UtteranceState) (pre : List Token) (g : Token) (mid : List Token) : Prop :=
  (st.after pre).turnsAtGlyph g = true ∧ (st.after (pre ++ [g])).quiet mid = true

/-- A token read earlier has the next utterance to be minted exactly if it is a standing glyph. -/
theorem utterance_eq_next_iff {st : UtteranceState} (start : st.Bounded) (pre : List Token)
    (g : Token) (mid : List Token) :
    ((st.after pre).step g).1.utterance = (st.after (pre ++ g :: mid)).largest + 1 ↔
      st.GlyphStands pre g mid := by
  have bounded := start.after pre
  have moved := (st.after pre).step_moved g
  have grows := largest_le_after ((st.after pre).step g).2 mid
  rw [GlyphStands, after_append, after_append]
  show ((st.after pre).step g).1.utterance = (((st.after pre).step g).2.after mid).largest + 1 ↔
    _ ∧ ((st.after pre).step g).2.quiet mid = true
  obtain ⟨current, outside⟩ := bounded
  generalize (st.after pre).step g = next at moved grows
  obtain ⟨m, st'⟩ := next
  dsimp only at moved grows ⊢
  cases moved with
  | turnAtGlyph turns utterance current' outside' largest' =>
    rw [and_iff_right turns, ← largest_after_eq_iff (by omega) (by omega)]
    omega
  | turn _ opens =>
    have turns : ¬ (st.after pre).turnsAtGlyph g = true := by simp [turnsAtGlyph, opens]
    exact iff_of_false (by omega) fun stands => turns stands.1
  | glyph _ turns =>
    exact iff_of_false (by omega) fun stands => by simp [turns] at stands
  | close mints =>
    exact iff_of_false (by omega) fun stands => by simp [mints_of_turnsAtGlyph stands.1] at mints
  | quiet mints =>
    exact iff_of_false (by omega) fun stands => by simp [mints_of_turnsAtGlyph stands.1] at mints

theorem current_mint {st : UtteranceState} {t : Token} (mints : st.mints t = true) :
    ((st.hear t).mint t).current = st.largest + 1 := by
  cases changes : (st.hear t).changesSpeaker t with
  | true => simp [mint, changes]
  | false =>
    have opens : st.opens t = true := by simpa [UtteranceState.mints, changes] using mints
    simp [mint, changes, opens]

end UtteranceState

namespace Document

/-- The state before the first token of a document. -/
def utteranceStart (doc : Document) : UtteranceState :=
  { previousSpeaker? := doc.tokens.head?.bind Token.speaker? }

theorem bounded_utteranceStart (doc : Document) : doc.utteranceStart.Bounded :=
  ⟨Nat.le_refl 0, Nat.zero_le 1⟩

theorem flatMap_dealTokens {sentences : List Sentence} {tokens : List Token}
    (length : tokens.length = tokensIn sentences) :
    (dealTokens sentences tokens).flatMap Sentence.tokens = tokens := by
  induction sentences generalizing tokens with
  | nil => exact (List.length_eq_zero_iff.mp length).symm
  | cons s rest ih =>
    have others : (tokens.drop s.length).length = tokensIn rest := by
      rw [List.length_drop, length, tokensIn, Nat.add_sub_cancel_left]
    rw [dealTokens, List.flatMap_cons, ih others]
    exact List.take_append_drop s.length tokens

theorem tokens_setUtterances (doc : Document) :
    doc.setUtterances.tokens = (doc.utteranceStart.run doc.tokens).1 := by
  refine flatMap_dealTokens ?_
  rw [UtteranceState.length_run]
  exact length_flatMap_tokens doc.sentences

/-- The utterance minted at a token is that of a token read earlier exactly if the earlier one is a
glyph that still stands: the speaker changed at it, it opened a quotation, and since then no
utterance was minted and no quotation closed. -/
theorem utterance_eq_minted_iff (doc : Document) {pre mid rest : List Token} {g t : Token}
    (split : doc.tokens = pre ++ g :: mid ++ t :: rest)
    (mints : (doc.utteranceStart.after (pre ++ g :: mid)).mints t = true) :
    ∃ m, doc.setUtterances.tokens[pre.length]? = some m ∧
      (m.utterance =
          (((doc.utteranceStart.after (pre ++ g :: mid)).hear t).mint t).current ↔
        doc.utteranceStart.GlyphStands pre g mid) := by
  refine ⟨((doc.utteranceStart.after pre).step g).1, ?_, ?_⟩
  · rw [tokens_setUtterances, split, List.append_assoc, UtteranceState.run_append]
    simp [UtteranceState.length_run, UtteranceState.run_cons]
  · rw [UtteranceState.current_mint mints]
    exact UtteranceState.utterance_eq_next_iff doc.bounded_utteranceStart pre g mid

/-- A token with its speaker. -/
def spoken (word speaker : String) : Token :=
  { Token.ofWord word "NN" with speaker? := some speaker }

/-- A quotation within a quotation that began at a change of speaker: what the inner one quotes gets
the utterance around the outer one. -/
theorem utterance_eq_minted_iff_nested :
    let x := spoken "x" "A"
    let g := spoken "\u201c" "B"
    let a := spoken "a" "B"
    let t := spoken "\u2018\u2018" "B"
    let doc := ofSentences "" [{ tokens := [x, g, a, t] }]
    doc.tokens = [x] ++ g :: [a] ++ t :: [] ∧
      (doc.utteranceStart.after ([x] ++ g :: [a])).mints t = true ∧
      doc.utteranceStart.GlyphStands [x] g [a] ∧
      ∃ m, doc.setUtterances.tokens[1]? = some m ∧
        (m.utterance = (((doc.utteranceStart.after ([x] ++ g :: [a])).hear t).mint t).current ↔
          doc.utteranceStart.GlyphStands [x] g [a]) := by
  intro x g a t doc
  have split : doc.tokens = [x] ++ g :: [a] ++ t :: [] := rfl
  have mints : (doc.utteranceStart.after ([x] ++ g :: [a])).mints t = true := by decide +kernel
  have stands : doc.utteranceStart.GlyphStands [x] g [a] := ⟨by decide +kernel, by decide +kernel⟩
  exact ⟨split, mints, stands, doc.utterance_eq_minted_iff split mints⟩

/-- The third speaker gets the utterance of the glyph with which the second one began a quotation
that is not closed. -/
theorem minted_again_unclosed :
    let tokens := [spoken "x" "A", spoken "\u201c" "B", spoken "hi" "B"]
    let t := spoken "yo" "C"
    let doc := ofSentences "" [{ tokens := tokens ++ [t] }]
    (doc.utteranceStart.after tokens).mints t = true ∧
      (((doc.utteranceStart.after tokens).hear t).mint t).current = 2 ∧
      doc.setUtterances.tokens.map Token.utterance = [0, 2, 1, 2] := by
  intro tokens t doc
  exact ⟨by decide +kernel, by decide +kernel, by decide +kernel⟩

end Document

end Discourse
