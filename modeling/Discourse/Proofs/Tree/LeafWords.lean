import Discourse.Proofs.Tree.Legibility
/-!
# Leaves of a bracketed text

The leaves of a tree that is read are the words of the text that do not stand right behind an
opening bracket, in order (`ParseTree.leaves_of_parse`).  Around a bracket and at a space a text
falls into parts whose symbols can be found one by one.
-/

namespace Discourse

/-- The words of a row of symbols that are no labels. -/
def leafWords : List Symbol → List String
  | [] => []
  | .opening :: .word _ :: rest => leafWords rest
  | .opening :: rest => leafWords rest
  | .closing :: rest => leafWords rest
  | .word letters :: rest => String.ofList letters :: leafWords rest

/-! ## Leaves while reading -/

theorem Row.leaves_reverseOnto (a b : Row) :
    (a.reverseOnto b).leaves = a.reverse.leaves ++ b.leaves := by
  induction a generalizing b with
  | done => rfl
  | word text next ih =>
    rw [reverse, reverseOnto, reverseOnto, ih, ih (word text done), List.append_assoc]
    rfl
  | phrase label below next _ ih =>
    rw [reverse, reverseOnto, reverseOnto, ih, ih (phrase label below done), List.append_assoc]
    simp [leaves]

theorem Row.leaves_reverse_word (text : String) (held : Row) :
    (word text held).reverse.leaves = held.reverse.leaves ++ [text] :=
  leaves_reverseOnto held (word text done)

theorem Row.leaves_reverse_phrase (label : String) (below held : Row) :
    (phrase label below held).reverse.leaves = held.reverse.leaves ++ below.leaves := by
  rw [reverse, reverseOnto, leaves_reverseOnto, leaves, leaves, List.append_nil]

/-- The leaves that open brackets hold, from the outermost on. -/
def openLeaves : List OpenBracket → List String
  | [] => []
  | inner :: outer => openLeaves outer ++ inner.held.reverse.leaves

namespace BracketState

/-- The leaves read so far. -/
def leaves (st : BracketState) : List String :=
  (st.root?.toList.flatMap ParseTree.leaves) ++ openLeaves st.pending

/-- The outermost bracket is closed last. -/
def Single (st : BracketState) : Prop := st.pending ≠ [] → st.root? = none

variable {st next : BracketState}

theorem leaves_opened {label : String} (single : st.Single) (ok : st.opened label = .ok next) :
    next.leaves = st.leaves ∧ next.Single := by
  unfold opened at ok
  split at ok
  next => cases ok
  next free =>
    cases ok
    refine ⟨?_, fun _ => ?_⟩
    · simp [leaves, openLeaves, Row.reverse, Row.reverseOnto, Row.leaves]
    · rw [Bool.and_eq_true, List.isEmpty_iff, not_and] at free
      by_cases outermost : st.pending = []
      · exact Option.not_isSome_iff_eq_none.mp (free outermost)
      · exact single outermost

theorem leaves_closed (single : st.Single) (ok : st.closed = .ok next) :
    next.leaves = st.leaves ∧ next.Single := by
  unfold closed at ok
  split at ok
  next => cases ok
  next outermost pending =>
    cases ok
    have unset := single (by simp [pending])
    refine ⟨?_, fun some => absurd rfl some⟩
    simp [leaves, openLeaves, pending, unset, ParseTree.leaves]
  next inner outer rest pending =>
    cases ok
    have unset := single (by simp [pending])
    refine ⟨?_, fun _ => unset⟩
    simp [leaves, openLeaves, pending, unset, Row.leaves_reverse_phrase]

theorem leaves_leaf {text : String} (single : st.Single) (ok : st.leaf text = .ok next) :
    next.leaves = st.leaves ++ [text] ∧ next.Single := by
  unfold leaf at ok
  split at ok
  next => cases ok
  next inner rest pending =>
    cases ok
    have unset := single (by simp [pending])
    refine ⟨?_, fun _ => unset⟩
    simp [leaves, openLeaves, pending, Row.leaves_reverse_word]

/-- Reading a row of symbols adds the words that are no labels. -/
theorem leaves_read {final : BracketState} {ahead : List Symbol} (single : st.Single)
    (ok : st.read ahead = .ok final) : final.leaves = st.leaves ++ leafWords ahead := by
  fun_induction BracketState.read st ahead with
  | case1 st =>
    cases ok
    exact (List.append_nil _).symm
  | case2 st letters rest ih =>
    obtain ⟨next, opened, ok⟩ := bind_eq_ok_iff.mp ok
    obtain ⟨kept, single⟩ := leaves_opened single opened
    rw [ih next single ok, kept, leafWords]
  | case3 st rest apart ih =>
    obtain ⟨next, opened, ok⟩ := bind_eq_ok_iff.mp ok
    obtain ⟨kept, single⟩ := leaves_opened single opened
    rw [ih next single ok, kept, leafWords]
    exact apart
  | case4 st rest ih =>
    obtain ⟨next, closed, ok⟩ := bind_eq_ok_iff.mp ok
    obtain ⟨kept, single⟩ := leaves_closed single closed
    rw [ih next single ok, kept, leafWords]
  | case5 st letters rest ih =>
    obtain ⟨next, leaf, ok⟩ := bind_eq_ok_iff.mp ok
    obtain ⟨more, single⟩ := leaves_leaf single leaf
    rw [ih next single ok, more, leafWords, List.append_assoc]
    rfl

end BracketState

/-- The leaves of a tree are the words of its text that are no labels. -/
theorem ParseTree.leaves_of_parse {text : String} {tree : ParseTree}
    (ok : ParseTree.parse text = .ok tree) : tree.leaves = leafWords (symbols text) := by
  obtain ⟨final, read, finish⟩ := bind_eq_ok_iff.mp ok
  have leaves := BracketState.leaves_read (fun some => absurd rfl some) read
  unfold BracketState.finish at finish
  split at finish
  next => cases finish
  next closed =>
    rw [Bool.not_eq_true, Bool.not_eq_false', List.isEmpty_iff] at closed
    split at finish
    next => cases finish
    next root =>
      cases finish
      simpa [BracketState.leaves, openLeaves, closed, root] using leaves

/-! ## Parts of a row of symbols -/

/-- Only a word at the start of what follows could be taken for a label. -/
theorem leafWords_append {front back : List Symbol}
    (apart : ∀ letters rest, back ≠ .word letters :: rest) :
    leafWords (front ++ back) = leafWords front ++ leafWords back := by
  fun_induction leafWords front with
  | case1 => rfl
  | case2 letters rest ih => rw [List.cons_append, List.cons_append, leafWords, ih]
  | case3 rest unlabelled ih =>
    rw [List.cons_append, leafWords, ih]
    intro letters tail same
    cases rest with
    | nil => exact apart letters tail same
    | cons first others =>
      cases same
      exact unlabelled letters others rfl
  | case4 rest ih => rw [List.cons_append, leafWords, ih]
  | case5 letters rest ih => rw [List.cons_append, leafWords, ih, List.cons_append]

/-- A labelled word with what stands around it. -/
theorem leafWords_leaf (front back : List Symbol) (label letters : List Char) :
    leafWords (front ++ .opening :: .word label :: .word letters :: .closing :: back) =
      leafWords front ++ String.ofList letters :: leafWords back :=
  leafWords_append (by simp)

/-- A bracket without anything in it, with what stands around it. -/
theorem leafWords_empty (front back : List Symbol) :
    leafWords (front ++ .opening :: .closing :: back) = leafWords front ++ leafWords back := by
  rw [leafWords_append (by simp), leafWords, leafWords]
  simp

/-! ## Parts of a text -/

/-- If a word starts at the very next character, the row of symbols starts with it. -/
def WordFirst (st : List Symbol × Bool) : Prop :=
  st.2 = true → ∃ letters rest, st.1 = .word letters :: rest

theorem WordFirst.consSymbol {row : List Symbol} {joined : Bool} (first : WordFirst (row, joined))
    (c : Char) (back : List Symbol) :
    Discourse.consSymbol c (row ++ back, joined) =
      ((Discourse.consSymbol c (row, joined)).1 ++ back,
        (Discourse.consSymbol c (row, joined)).2) ∧
      WordFirst (Discourse.consSymbol c (row, joined)) := by
  by_cases opening : c = '('
  · subst opening
    exact ⟨rfl, fun joined => absurd joined Bool.false_ne_true⟩
  by_cases closing : c = ')'
  · subst closing
    exact ⟨rfl, fun joined => absurd joined Bool.false_ne_true⟩
  cases blank : Text.isBlank c with
  | true =>
    have skips (row : List Symbol) : Discourse.consSymbol c (row, joined) = (row, false) := by
      unfold Discourse.consSymbol
      dsimp only
      rw [if_neg opening, if_neg closing, if_pos blank]
    rw [skips, skips]
    exact ⟨rfl, fun joined => absurd joined Bool.false_ne_true⟩
  | false =>
    have plain : IsPlain c := ⟨opening, closing, blank⟩
    cases joined with
    | false =>
      rw [consSymbol_apart plain, consSymbol_apart plain]
      exact ⟨rfl, fun _ => ⟨[c], row, rfl⟩⟩
    | true =>
      obtain ⟨letters, rest, rfl⟩ := first rfl
      rw [List.cons_append, consSymbol_joined plain, consSymbol_joined plain]
      exact ⟨rfl, fun _ => ⟨c :: letters, rest, rfl⟩⟩

theorem foldr_consSymbol_append (cs : List Char) (back : List Symbol) :
    cs.foldr consSymbol (back, false) =
      ((cs.foldr consSymbol ([], false)).1 ++ back, (cs.foldr consSymbol ([], false)).2) ∧
      WordFirst (cs.foldr consSymbol ([], false)) := by
  induction cs with
  | nil => exact ⟨rfl, fun joined => absurd joined Bool.false_ne_true⟩
  | cons c rest ih =>
    obtain ⟨split, first⟩ := ih
    rw [List.foldr_cons, List.foldr_cons, split]
    exact first.consSymbol c back

/-- The symbols of a row of characters. -/
def charSymbols (cs : List Char) : List Symbol := (cs.foldr consSymbol ([], false)).1

theorem symbols_eq (text : String) : symbols text = charSymbols text.toList := rfl

theorem charSymbols_append_opening (front back : List Char) :
    charSymbols (front ++ '(' :: back) = charSymbols front ++ .opening :: charSymbols back := by
  rw [charSymbols, List.foldr_append, List.foldr_cons, ← Prod.eta (back.foldr _ _),
    consSymbol_opening, (foldr_consSymbol_append front _).1]
  rfl

theorem charSymbols_append_closing (front back : List Char) :
    charSymbols (front ++ ')' :: back) = charSymbols front ++ .closing :: charSymbols back := by
  rw [charSymbols, List.foldr_append, List.foldr_cons, ← Prod.eta (back.foldr _ _),
    consSymbol_closing, (foldr_consSymbol_append front _).1]
  rfl

theorem charSymbols_append_space (front back : List Char) :
    charSymbols (front ++ ' ' :: back) = charSymbols front ++ charSymbols back := by
  rw [charSymbols, List.foldr_append, List.foldr_cons, ← Prod.eta (back.foldr _ _),
    consSymbol_space, (foldr_consSymbol_append front _).1]
  rfl

theorem IsWord.charSymbols {letters : List Char} (word : IsWord letters) :
    charSymbols letters = [.word letters] := by
  rw [Discourse.charSymbols, word.foldr_consSymbol]

theorem charSymbols_intercalate (parts : List (List Char)) :
    charSymbols ([' '].intercalate parts) = parts.flatMap charSymbols := by
  induction parts with
  | nil => rfl
  | cons part rest ih =>
    cases rest with
    | nil => simp [List.intercalate]
    | cons next others =>
      have spaced : [' '].intercalate (part :: next :: others) =
          part ++ ' ' :: [' '].intercalate (next :: others) := by
        simp [List.intercalate]
      rw [spaced, charSymbols_append_space, ih]
      exact List.flatMap_cons.symm

/-- A labelled word in brackets, with what stands around it. -/
theorem charSymbols_leaf {label letters : List Char} (labelled : IsWord label)
    (word : IsWord letters) (front back : List Char) :
    charSymbols (front ++ '(' :: label ++ ' ' :: letters ++ ')' :: back) =
      charSymbols front ++ .opening :: .word label :: .word letters :: .closing ::
        charSymbols back := by
  rw [charSymbols_append_closing, charSymbols_append_space, charSymbols_append_opening,
    labelled.charSymbols, word.charSymbols]
  simp

end Discourse
