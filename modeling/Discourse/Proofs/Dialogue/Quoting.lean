import Discourse.Dialogue.Basic
import Discourse.Proofs.Dialogue.Scanning
/-!
# Quotations and utterances

Two scanners walk over the glyphs of a text: one finds the quotations (`Document.detectQuotes`), the
other numbers the utterances (`UtteranceState.run`).  Where no speaker comes with the tokens they
agree on what is quoted, also where glyphs are repeated, stray or never closed, and the utterance of
what is quoted counts the openings up to it (`utterance_ne_zero_iff_isQuoted`).

The induction is on the tokens read, and its invariant is `UtteranceState.Follows`: the machine is
in a quotation exactly if the scanner has a glyph open, and has counted the openings.
-/

namespace Discourse

theorem ite_eq_toNat (b : Bool) : (if b = true then 1 else 0) = b.toNat := by
  cases b <;> rfl

namespace UtteranceState

/-- The machine after some tokens without a speaker: it is in a quotation if the scanner has a glyph
open, and what is quoted belongs to the utterance of the last opening. -/
structure Follows (st : UtteranceState) (open? : Option Nat) (count : Nat) : Prop where
  inQuote : st.inQuote = open?.isSome
  outside : st.outside = 0
  current : st.current = if open?.isSome then count else 0
  largest : st.largest = count
  counted : open?.isSome = true → 0 < count

variable {st : UtteranceState} {open? : Option Nat} {count : Nat} {t : Token}

theorem inQuote_mint (st : UtteranceState) (t : Token) : (st.mint t).inQuote = st.inQuote := by
  unfold mint
  split
  · rfl
  · split <;> rfl

theorem inQuote_leave (st : UtteranceState) (closing : Bool) :
    (st.leave closing).inQuote = (st.inQuote && !closing) := by
  cases closing with
  | true => exact (Bool.and_false _).symm
  | false => exact (Bool.and_true _).symm

theorem inQuote_step (st : UtteranceState) (t : Token) :
    (st.step t).2.inQuote = ((st.inQuote && !st.closes t) || st.opens t) := by
  show ((((st.hear t).mint t).leave (st.closes t)).inQuote || st.opens t) = _
  rw [inQuote_leave, inQuote_mint]
  rfl

/-- Inside a quotation the two scanners close at the same tokens. -/
theorem closes_eq (inside : st.inQuote = true) (t : Token) : st.closes t = t.mayClose := by
  rw [closes, inside, Bool.true_and, Token.mayClose]

/-- Outside a quotation they open at the same tokens. -/
theorem opens_eq (outside : st.inQuote = false) (t : Token) : st.opens t = t.mayOpen := by
  rw [opens, outside, Bool.not_false, Bool.true_and, Token.mayOpen]

theorem isSome_glyphStep (agree : st.inQuote = open?.isSome) (i : Nat) (t : Token) :
    (glyphStep open? i t).isSome = ((st.inQuote && !st.closes t) || st.opens t) := by
  cases open? with
  | none =>
    rw [agree, opens_eq agree, glyphStep, Option.isSome_none, Bool.false_and, Bool.false_or]
    cases t.mayOpen <;> rfl
  | some start =>
    rw [closes_eq agree, agree, glyphStep, Option.isSome_some, Bool.true_and, ← closes_eq agree]
    cases opens : st.opens t with
    | true => rw [not_closes_of_opens opens]; rfl
    | false => cases st.closes t <;> rfl

theorem Follows.step (h : st.Follows open? count) (silent : t.speaker? = none) (i : Nat) :
    (st.step t).2.Follows (glyphStep open? i t) (count + (st.opens t).toNat) ∧
      (st.step t).1.utterance =
        if st.inQuote && !st.closes t && !st.opens t then count else 0 := by
  have mints_eq : st.mints t = st.opens t := by
    simp [UtteranceState.mints, changesSpeaker, silent]
  have moved := st.step_moved t
  have stays := inQuote_step st t
  have agree := isSome_glyphStep h.inQuote i t
  have current := h.current
  rw [← h.inQuote] at current
  generalize st.step t = next at moved stays
  obtain ⟨m, st'⟩ := next
  dsimp only at moved stays ⊢
  have inQuote : st'.inQuote = (glyphStep open? i t).isSome := stays.trans agree.symm
  cases moved with
  | turnAtGlyph turns => simp [turnsAtGlyph, changesSpeaker, silent] at turns
  | turn mints opens =>
    rw [mints_eq, opens] at mints
    cases mints
  | glyph mints _ utterance current' outside' largest' =>
    rw [mints_eq] at mints
    rw [mints, Bool.or_true] at agree
    have counted : st'.largest = count + (st.opens t).toNat := by
      rw [largest', h.largest, mints]
      rfl
    refine ⟨⟨inQuote, outside'.trans h.outside, ?_, counted, fun _ => by simp [mints]⟩, ?_⟩
    · rw [agree, if_pos rfl, ← counted, current', largest']
    · rw [utterance, h.outside, mints, Bool.not_true, Bool.and_false, if_neg Bool.false_ne_true]
  | close mints closes utterance current' outside' largest' =>
    rw [mints_eq] at mints
    rw [closes, mints, Bool.not_true, Bool.and_false, Bool.or_false] at agree
    refine ⟨⟨inQuote, outside'.trans h.outside, ?_, ?_, fun opened => ?_⟩, ?_⟩
    · rw [agree, if_neg Bool.false_ne_true, current', h.outside]
    · rw [largest', h.largest, h.outside, mints, Nat.max_eq_left (Nat.zero_le count)]
      rfl
    · rw [agree] at opened
      cases opened
    · rw [utterance, h.outside, closes, Bool.not_true, Bool.and_false, Bool.false_and,
        if_neg Bool.false_ne_true]
  | quiet mints closes utterance current' outside' largest' =>
    rw [mints_eq] at mints
    rw [closes, mints, Bool.not_false, Bool.and_true, Bool.or_false] at agree
    have known : st.current ≤ count := by rw [current]; split <;> omega
    have same : count + (st.opens t).toNat = count := by rw [mints]; rfl
    rw [same]
    refine ⟨⟨inQuote, outside'.trans h.outside, ?_, ?_, fun opened => ?_⟩, ?_⟩
    · rw [agree, current', current]
    · rw [largest', h.largest, Nat.max_eq_left known]
    · rw [agree, h.inQuote] at opened
      exact h.counted opened
    · rw [utterance, current, closes, mints, Bool.not_false, Bool.and_true, Bool.and_true]

theorem words_run (st : UtteranceState) (tokens : List Token) :
    (st.run tokens).1.map Token.word = tokens.map Token.word := by
  induction tokens generalizing st with
  | nil => rfl
  | cons t rest ih =>
    rw [run_cons, List.map_cons, List.map_cons, ih]
    rfl

end UtteranceState

namespace Document

theorem words_setUtterances (doc : Document) :
    doc.setUtterances.tokens.map Token.word = doc.tokens.map Token.word := by
  rw [tokens_setUtterances, UtteranceState.words_run]

/-- The machine follows the scanner over a document with these words, and counts its openings. -/
theorem follows_after {doc d : Document} (silent : ∀ t ∈ doc.tokens, t.speaker? = none)
    (words : d.tokens.map Token.word = doc.tokens.map Token.word) {pre rest : List Token}
    (split : doc.tokens = pre ++ rest) :
    (doc.utteranceStart.after pre).Follows (openAfter none 0 pre)
      ((List.range pre.length).countP d.isOpening) := by
  induction pre using List.reverseRecOn generalizing rest with
  | nil => exact ⟨rfl, rfl, rfl, rfl, fun opened => by cases opened⟩
  | append_singleton xs t ih =>
    rw [List.append_assoc] at split
    have before := ih split
    have next := (before.step (t := t) (silent t (by simp [split])) xs.length).1
    have opens : d.isOpening xs.length = (doc.utteranceStart.after xs).opens t := by
      rw [isOpening_of_words (split ▸ words), UtteranceState.opens, before.inQuote, Bool.and_comm]
    rw [UtteranceState.after_append, openAfter_append_singleton, List.length_append,
      List.length_singleton, List.range_succ, List.countP_append, List.countP_singleton, opens]
    rw [← ite_eq_toNat] at next
    exact next

theorem tokens_mapTokens (doc : Document) (f : Token → Token) :
    (doc.mapTokens f).tokens = doc.tokens.map f := by
  rw [tokens, tokens, mapTokens, List.map_flatMap, List.flatMap_map]

/-- The document with its utterances: marks that came with the tokens are kept only if the document
says so. -/
def uttered (doc : Document) : Document := (if doc.marked then doc else doc.dropMarks).setUtterances

theorem silent_dropMarks (doc : Document) : ∀ t ∈ doc.dropMarks.tokens, t.speaker? = none := by
  intro t mem
  rw [dropMarks, tokens_mapTokens] at mem
  obtain ⟨u, -, rfl⟩ := List.mem_map.mp mem
  rfl

theorem openings_eq (doc : Document) (place : Nat) :
    doc.openings place = (List.range place).countP doc.isOpening + (doc.isOpening place).toNat := by
  rw [openings, List.range_succ, List.countP_append, List.countP_singleton, ite_eq_toNat]

section Marked

variable {doc : Document} {pre rest : List Token} {t : Token}

/-- The utterance that the machine gives to a token without a speaker. -/
theorem utterance_step_eq (silent : ∀ t ∈ doc.tokens, t.speaker? = none)
    (split : doc.tokens = pre ++ t :: rest) :
    ((doc.utteranceStart.after pre).step t).1.utterance =
      if doc.setUtterances.isQuoted pre.length && !isOpeningGlyph t.word then
        doc.setUtterances.openings pre.length
      else 0 := by
  have words := doc.words_setUtterances
  have follows := follows_after silent words split
  have utterance := (follows.step (silent t (by simp [split])) pre.length).2
  rw [split] at words
  rw [utterance, isQuoted_of_words words, openings_eq, isOpening_of_words words, ← follows.inQuote]
  generalize doc.utteranceStart.after pre = st
  cases inside : st.inQuote with
  | false => rfl
  | true =>
    have opens : st.opens t = isOpeningGlyph t.word := by
      rw [UtteranceState.opens, inside, Bool.not_true, Bool.false_and, Bool.or_false]
    rw [UtteranceState.closes_eq inside, opens, Bool.true_and, Bool.not_true, Bool.and_false,
      Bool.or_false]
    cases isOpeningGlyph t.word with
    | true => rw [Bool.not_true, Bool.and_false]; rfl
    | false => rfl

/-- An opening has been counted where something is quoted. -/
theorem openings_pos (silent : ∀ t ∈ doc.tokens, t.speaker? = none)
    (split : doc.tokens = pre ++ t :: rest)
    (quoted : doc.setUtterances.isQuoted pre.length = true) :
    0 < doc.setUtterances.openings pre.length := by
  have words := doc.words_setUtterances
  have follows := follows_after silent words split
  rw [split] at words
  rw [isQuoted_of_words words, Bool.and_eq_true] at quoted
  rw [openings_eq]
  exact Nat.lt_add_right _ (follows.counted quoted.1)

end Marked

/-- Where no speaker comes with the tokens exactly what is quoted leaves utterance 0, opening glyphs
aside, and its utterance is the number of openings up to it. -/
theorem utterance_ne_zero_iff_isQuoted (doc : Document)
    (silent : doc.marked = false ∨ ∀ t ∈ doc.tokens, t.speaker? = none) {place : Nat} {t : Token}
    (found : doc.uttered.tokens[place]? = some t) :
    t.utterance?.isSome = true ∧
      (t.utterance ≠ 0 ↔
        doc.uttered.isQuoted place = true ∧ isOpeningGlyph t.word = false) ∧
      (t.utterance ≠ 0 → t.utterance = doc.uttered.openings place) := by
  have heard : ∃ source : Document, doc.uttered = source.setUtterances ∧
      ∀ t ∈ source.tokens, t.speaker? = none := by
    refine ⟨_, rfl, ?_⟩
    split
    next marked =>
      rcases silent with unmarked | silent
      · rw [unmarked] at marked
        cases marked
      · exact silent
    next => exact doc.silent_dropMarks
  obtain ⟨source, uttered, silent⟩ := heard
  rw [uttered] at found ⊢
  have inside : place < source.tokens.length := by
    rw [← UtteranceState.length_run source.utteranceStart, ← tokens_setUtterances]
    exact (List.getElem?_eq_some_iff.mp found).1
  obtain ⟨pre, rest, split, rfl⟩ :=
    exists_split_of_getElem? (List.getElem?_eq_some_iff.mpr ⟨inside, rfl⟩)
  generalize source.tokens[pre.length] = u at split
  have marked : t = ((source.utteranceStart.after pre).step u).1 := by
    rw [tokens_setUtterances, split, UtteranceState.run_append] at found
    simpa [UtteranceState.length_run, UtteranceState.run_cons, eq_comm] using found
  have word : t.word = u.word := by
    rw [marked]
    rfl
  have utterance := utterance_step_eq silent split
  rw [← marked, ← word] at utterance
  refine ⟨by rw [marked]; rfl, ?_, fun spoken => ?_⟩
  · rw [utterance, ite_ne_right_iff, Bool.and_eq_true, Bool.not_eq_true']
    refine and_iff_left_of_imp fun quoted => ?_
    exact Nat.ne_of_gt (openings_pos silent split quoted.1)
  · rw [utterance] at spoken ⊢
    rw [if_pos (ite_ne_right_iff.mp spoken).1]

/-- A stray closing glyph, an opening glyph that is repeated, a closed quotation, and a neutral one
that is never closed: the last word is quoted after three openings. -/
theorem utterance_ne_zero_iff_isQuoted_unclosed :
    let words := ["\u201d", "\u201c", "a", "``", "b", "\u201d", "c", "\"", "d"]
    let doc := ofSentences "" [{ tokens := words.map fun word => spoken word "A" }]
    let t : Token :=
      { Token.ofWord "d" "NN" with utterance? := some 3, speaker? := some "PER3" }
    doc.marked = false ∧ doc.uttered.tokens[8]? = some t ∧
      doc.uttered.detectQuotes.map (fun q => (q.tokenBegin, q.tokenEnd)) = [(1, 6)] ∧
      doc.uttered.unclosed? = some 7 ∧
      t.utterance?.isSome = true ∧
      (t.utterance ≠ 0 ↔ doc.uttered.isQuoted 8 = true ∧ isOpeningGlyph t.word = false) ∧
      (t.utterance ≠ 0 → t.utterance = doc.uttered.openings 8) := by
  intro words doc t
  have unmarked : doc.marked = false := rfl
  have found : doc.uttered.tokens[8]? = some t := by decide +kernel
  exact ⟨unmarked, found, by decide +kernel, by decide +kernel,
    doc.utterance_ne_zero_iff_isQuoted (.inl unmarked) found⟩

end Document

end Discourse
