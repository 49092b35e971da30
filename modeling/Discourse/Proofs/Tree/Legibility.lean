import Discourse.Tree.Reader
import Mathlib.Tactic.TFAE
/-!
# Reading back what was written

A tree in bracketed form is read back as the same tree, if only it was read from some text before
(`ParseTree.parse_penn_tfae`).  Not every tree is: the word after an opening bracket is always its
label, so that a bracket without a label cannot start with a word, and a word or a label cannot
have blanks or brackets in it.  Trees without such flaws are called legible.

Writing and reading meet at the symbols.  A legible row is written so that its symbols come out as
they should (`foldr_consSymbol_penn`), and reading these puts the row into the innermost bracket
(`read_symbols`).  The other way round, each symbol read keeps the open brackets legible.
-/

namespace Discourse

/-! ## Legible trees -/

/-- A character that can be part of a word. -/
def IsPlain (c : Char) : Prop := c ≠ '(' ∧ c ≠ ')' ∧ Text.isBlank c = false

/-- A row of characters that is read as one word. -/
structure IsWord (letters : List Char) : Prop where
  nonempty : letters ≠ []
  plain : ∀ c ∈ letters, IsPlain c

namespace Row

/-- Whether the first constituent of a row is a word. -/
def startsWithWord : Row → Bool
  | word _ _ => true
  | done | phrase _ _ _ => false

/-- Whether a label is read as the label of a bracket around a row: it is a word, or it is empty and
no word follows that would be taken for it. -/
def Fits (label : String) (below : Row) : Prop :=
  IsWord label.toList ∨ label = "" ∧ below.startsWithWord = false

/-- A row that is read back from its bracketed form. -/
def Legible : Row → Prop
  | done => True
  | word text next => IsWord text.toList ∧ next.Legible
  | phrase label below next => Fits label below ∧ below.Legible ∧ next.Legible

end Row

/-- A tree that is read back from its bracketed form. -/
def ParseTree.Legible (tree : ParseTree) : Prop :=
  Row.Fits tree.label tree.below ∧ tree.below.Legible

/-! ## From characters to symbols -/

section Symbols

variable {c : Char} {row : List Symbol} {joined : Bool}

theorem consSymbol_opening : consSymbol '(' (row, joined) = (.opening :: row, false) := rfl

theorem consSymbol_closing : consSymbol ')' (row, joined) = (.closing :: row, false) := rfl

theorem consSymbol_space : consSymbol ' ' (row, joined) = (row, false) := by
  unfold consSymbol
  dsimp only
  rw [if_neg (by decide), if_neg (by decide), if_pos (by decide)]

/-- A plain character starts a word, unless a word starts right behind it. -/
theorem consSymbol_apart (plain : IsPlain c) :
    consSymbol c (row, false) = (.word [c] :: row, true) := by
  obtain ⟨noOpening, noClosing, noBlank⟩ := plain
  unfold consSymbol
  dsimp only
  rw [if_neg noOpening, if_neg noClosing, noBlank]
  cases row with
  | nil => rfl
  | cons first _ => cases first <;> rfl

theorem consSymbol_joined (plain : IsPlain c) (letters : List Char) :
    consSymbol c (.word letters :: row, true) = (.word (c :: letters) :: row, true) := by
  obtain ⟨noOpening, noClosing, noBlank⟩ := plain
  unfold consSymbol
  dsimp only
  rw [if_neg noOpening, if_neg noClosing, noBlank]
  rfl

/-- Where the words of a row of symbols come from. -/
theorem mem_consSymbol {letters : List Char}
    (mem : .word letters ∈ (consSymbol c (row, joined)).1) :
    .word letters ∈ row ∨ IsPlain c ∧
      ∃ tail, letters = c :: tail ∧ (tail = [] ∨ .word tail ∈ row) := by
  unfold consSymbol at mem
  dsimp only at mem
  split at mem
  next =>
    rcases List.mem_cons.mp mem with new | old
    · cases new
    · exact .inl old
  next noOpening =>
    split at mem
    next =>
      rcases List.mem_cons.mp mem with new | old
      · cases new
      · exact .inl old
    next noClosing =>
      split at mem
      next => exact .inl mem
      next noBlank =>
        have plain : IsPlain c := ⟨noOpening, noClosing, Bool.eq_false_iff.mpr noBlank⟩
        split at mem
        next tail rest =>
          rcases List.mem_cons.mp mem with new | old
          · cases new
            exact .inr ⟨plain, tail, rfl, .inr List.mem_cons_self⟩
          · exact .inl (List.mem_cons_of_mem _ old)
        next =>
          rcases List.mem_cons.mp mem with new | old
          · cases new
            exact .inr ⟨plain, [], rfl, .inl rfl⟩
          · exact .inl old

theorem IsWord.foldr_consSymbol {letters : List Char} (word : IsWord letters)
    (row : List Symbol) : letters.foldr consSymbol (row, false) = (.word letters :: row, true) := by
  obtain ⟨nonempty, plain⟩ := word
  induction letters with
  | nil => exact absurd rfl nonempty
  | cons c rest ih =>
    obtain ⟨plain_c, plain_rest⟩ := List.forall_mem_cons.mp plain
    cases rest with
    | nil => exact consSymbol_apart plain_c
    | cons d rest =>
      rw [List.foldr_cons, ih (List.cons_ne_nil d rest) plain_rest]
      exact consSymbol_joined plain_c (d :: rest)

/-- Every word among the symbols of a text is a word. -/
theorem isWord_of_mem_symbols {text : String} {letters : List Char}
    (mem : .word letters ∈ symbols text) : IsWord letters := by
  rw [symbols] at mem
  generalize text.toList = cs at mem
  induction cs generalizing letters with
  | nil => cases mem
  | cons c rest ih =>
    rcases mem_consSymbol mem with old | ⟨plain, tail, rfl, rfl | old⟩
    · exact ih old
    · exact ⟨List.cons_ne_nil c [], List.forall_mem_singleton.mpr plain⟩
    · exact ⟨List.cons_ne_nil c tail, List.forall_mem_cons.mpr ⟨plain, (ih old).plain⟩⟩

end Symbols

/-- The symbols of a label. -/
def labelSymbols (label : String) : List Symbol :=
  if label = "" then [] else [.word label.toList]

/-- The symbols of a row. -/
def Row.symbols : Row → List Symbol
  | done => []
  | word text next => .word text.toList :: next.symbols
  | phrase label below next =>
    .opening :: labelSymbols label ++ below.symbols ++ .closing :: next.symbols

theorem IsWord.ne_empty {label : String} (word : IsWord label.toList) : label ≠ "" := by
  rintro rfl
  exact word.nonempty rfl

theorem Row.Fits.foldr_consSymbol {label : String} {below : Row} (fits : Fits label below)
    (row : List Symbol) :
    (label.toList.foldr consSymbol (row, false)).1 = labelSymbols label ++ row := by
  rcases fits with word | ⟨rfl, -⟩
  · rw [word.foldr_consSymbol, labelSymbols, if_neg word.ne_empty]
    rfl
  · rfl

/-- The characters of a written row make its symbols. -/
theorem Row.Legible.foldr_consSymbol_penn {row : Row} (legible : row.Legible)
    (rest : List Symbol) : row.penn.foldr consSymbol (rest, false) = (row.symbols ++ rest, false) := by
  induction row generalizing rest with
  | done => rfl
  | word text next ih =>
    obtain ⟨word, next_legible⟩ := legible
    rw [penn, List.foldr_append, ih next_legible, List.foldr_cons, word.foldr_consSymbol,
      consSymbol_space]
    rfl
  | phrase label below next ih_below ih_next =>
    obtain ⟨fits, below_legible, next_legible⟩ := legible
    simp only [penn, List.foldr_append, List.foldr_cons, List.foldr_nil, ih_next next_legible,
      consSymbol_closing, ih_below below_legible]
    rw [← Prod.eta (label.toList.foldr _ _), fits.foldr_consSymbol, consSymbol_opening,
      consSymbol_space]
    simp [symbols]

theorem ParseTree.Legible.symbols_penn {tree : ParseTree} (legible : tree.Legible) :
    symbols tree.penn = tree.asRow.symbols := by
  obtain ⟨fits, below_legible⟩ := legible
  rw [Discourse.symbols, ParseTree.penn, String.toList_ofList]
  simp only [List.foldr_append, List.foldr_cons, List.foldr_nil, consSymbol_closing,
    below_legible.foldr_consSymbol_penn]
  rw [← Prod.eta (tree.label.toList.foldr _ _), fits.foldr_consSymbol, consSymbol_opening]
  simp [ParseTree.asRow, Row.symbols]

/-! ## From symbols to trees -/

namespace Row

theorem legible_reverseOnto_iff (a b : Row) :
    (a.reverseOnto b).Legible ↔ a.Legible ∧ b.Legible := by
  induction a generalizing b with
  | done => simp [reverseOnto, Legible]
  | word text next ih =>
    rw [reverseOnto, ih]
    simp only [Legible, and_assoc, and_left_comm]
  | phrase label below next _ ih =>
    rw [reverseOnto, ih]
    simp only [Legible, and_assoc, and_left_comm]

theorem reverse_reverseOnto (a b : Row) : (a.reverseOnto b).reverse = b.reverseOnto a := by
  induction a generalizing b with
  | done => rfl
  | word text next ih => exact ih (word text b)
  | phrase label below next _ ih => exact ih (phrase label below b)

theorem reverse_reverse (a : Row) : a.reverse.reverse = a := reverse_reverseOnto a done

/-- What a row starts with once it has been turned round does not depend on what it is put in front
of, unless it is empty. -/
theorem startsWithWord_reverseOnto {a : Row} (nonempty : a ≠ done) (b b' : Row) :
    (a.reverseOnto b).startsWithWord = (a.reverseOnto b').startsWithWord := by
  induction a generalizing b b' with
  | done => exact absurd rfl nonempty
  | word text next ih =>
    by_cases last : next = done
    · rw [last]
      rfl
    · exact ih last _ _
  | phrase label below next _ ih =>
    by_cases last : next = done
    · rw [last]
      rfl
    · exact ih last _ _

/-- What a row starts with once it has been turned round and has got a constituent in front. -/
theorem startsWithWord_reverse_phrase (label : String) (below a : Row) :
    (phrase label below a).reverse.startsWithWord = a.reverse.startsWithWord := by
  by_cases nonempty : a = done
  · rw [nonempty]
    rfl
  · exact startsWithWord_reverseOnto nonempty _ _

theorem symbols_ne_word {row : Row} (apart : row.startsWithWord = false) (rest : List Symbol)
    (letters : List Char) (tail : List Symbol) :
    row.symbols ++ .closing :: rest ≠ .word letters :: tail := by
  cases row with
  | done => simp [symbols]
  | word text next => cases apart
  | phrase label below next => simp [symbols]

end Row

namespace BracketState

open Row

/-- An opening bracket with its label. -/
theorem read_opening {st next : BracketState} {label : String} {below : Row}
    (fits : Fits label below) (opened : st.opened label = .ok next) (rest : List Symbol) :
    st.read (.opening :: labelSymbols label ++ below.symbols ++ .closing :: rest) =
      next.read (below.symbols ++ .closing :: rest) := by
  rcases fits with word | ⟨rfl, apart⟩
  · rw [labelSymbols, if_neg word.ne_empty]
    simp only [List.cons_append, List.nil_append, read, String.ofList_toList, opened]
    rfl
  · rw [labelSymbols, if_pos rfl]
    simp only [List.cons_append, List.nil_append]
    rw [read, opened]
    · rfl
    · exact symbols_ne_word apart rest

/-- Reading the symbols of a row puts it into the innermost bracket. -/
theorem read_symbols {row : Row} (legible : row.Legible) (label : String) (held : Row)
    (outer : List OpenBracket) (root? : Option ParseTree) (rest : List Symbol) :
    read ⟨⟨label, held⟩ :: outer, root?⟩ (row.symbols ++ rest) =
      read ⟨⟨label, row.reverseOnto held⟩ :: outer, root?⟩ rest := by
  induction row generalizing label held outer rest with
  | done => rfl
  | word text next ih =>
    obtain ⟨-, next_legible⟩ := legible
    rw [Row.symbols, List.cons_append, read, String.ofList_toList]
    exact ih next_legible label (word text held) outer rest
  | phrase label' below next ih_below ih_next =>
    obtain ⟨fits, below_legible, next_legible⟩ := legible
    have opened : opened ⟨⟨label, held⟩ :: outer, root?⟩ label' =
        .ok ⟨⟨label', done⟩ :: ⟨label, held⟩ :: outer, root?⟩ := rfl
    have closed : closed ⟨⟨label', below.reverse⟩ :: ⟨label, held⟩ :: outer, root?⟩ =
        .ok ⟨⟨label, phrase label' below held⟩ :: outer, root?⟩ := by
      simp [BracketState.closed, reverse_reverse]
    calc
      read ⟨⟨label, held⟩ :: outer, root?⟩ ((phrase label' below next).symbols ++ rest)
        = read ⟨⟨label, held⟩ :: outer, root?⟩ (.opening :: labelSymbols label' ++ below.symbols ++
            .closing :: (next.symbols ++ rest)) := by simp [Row.symbols]
      _ = read ⟨⟨label', done⟩ :: ⟨label, held⟩ :: outer, root?⟩
            (below.symbols ++ .closing :: (next.symbols ++ rest)) := read_opening fits opened _
      _ = read ⟨⟨label', below.reverse⟩ :: ⟨label, held⟩ :: outer, root?⟩
            (.closing :: (next.symbols ++ rest)) := ih_below below_legible label' done _ _
      _ = read ⟨⟨label, phrase label' below held⟩ :: outer, root?⟩ (next.symbols ++ rest) := by
          rw [read, closed]
          rfl
      _ = read ⟨⟨label, next.reverseOnto (phrase label' below held)⟩ :: outer, root?⟩ rest :=
          ih_next next_legible label _ outer rest

end BracketState

/-- A legible tree is read back from its bracketed form. -/
theorem ParseTree.Legible.parse_penn {tree : ParseTree} (legible : tree.Legible) :
    ParseTree.parse tree.penn = .ok tree := by
  obtain ⟨fits, below_legible⟩ := legible
  have opened : BracketState.opened {} tree.label = .ok ⟨[⟨tree.label, .done⟩], none⟩ := rfl
  have closed : BracketState.closed ⟨[⟨tree.label, tree.below.reverse⟩], none⟩ =
      .ok ⟨[], some tree⟩ := by
    simp [BracketState.closed, Row.reverse_reverse]
  have states : BracketState.read {} tree.asRow.symbols = .ok ⟨[], some tree⟩ := calc
    BracketState.read {} tree.asRow.symbols
      = BracketState.read {} (.opening :: labelSymbols tree.label ++ tree.below.symbols ++
          .closing :: []) := rfl
    _ = BracketState.read ⟨[⟨tree.label, .done⟩], none⟩ (tree.below.symbols ++ .closing :: []) :=
        BracketState.read_opening fits opened []
    _ = BracketState.read ⟨[⟨tree.label, tree.below.reverse⟩], none⟩ [.closing] :=
        BracketState.read_symbols below_legible tree.label .done [] none [.closing]
    _ = .ok ⟨[], some tree⟩ := by
        rw [BracketState.read, closed]
        rfl
  rw [ParseTree.parse, ParseTree.Legible.symbols_penn ⟨fits, below_legible⟩, states]
  rfl

/-! ## What is read is legible -/

/-- An open bracket that is legible if it is closed now. -/
def OpenBracket.Legible (b : OpenBracket) : Prop :=
  Row.Fits b.label b.held.reverse ∧ b.held.Legible

/-- A state of reading that leads to a legible tree, with the symbols ahead: a bracket that has
neither a label nor anything in it is not followed by a word. -/
structure BracketState.Legible (st : BracketState) (ahead : List Symbol) : Prop where
  pending : ∀ b ∈ st.pending, b.Legible
  root : ∀ tree, st.root? = some tree → tree.Legible
  labelled : ∀ inner outer, st.pending = inner :: outer → inner.label = "" → inner.held = .done →
    ∀ letters rest, ahead ≠ .word letters :: rest

namespace BracketState

variable {st next : BracketState} {ahead rest : List Symbol}

theorem Legible.opened {label : String} (legible : st.Legible ahead)
    (fits : IsWord label.toList ∨ label = "" ∧ ∀ letters tail, rest ≠ .word letters :: tail)
    (ok : st.opened label = .ok next) : next.Legible rest := by
  unfold BracketState.opened at ok
  split at ok
  next => cases ok
  next =>
    cases ok
    refine ⟨List.forall_mem_cons.mpr ⟨⟨?_, trivial⟩, legible.pending⟩, legible.root, ?_⟩
    · rcases fits with word | ⟨empty, -⟩
      · exact .inl word
      · exact .inr ⟨empty, rfl⟩
    · intro inner outer split empty _
      cases split
      rcases fits with word | ⟨-, apart⟩
      · exact absurd empty word.ne_empty
      · exact apart

theorem Legible.closed (legible : st.Legible ahead) (ok : st.closed = .ok next) :
    next.Legible rest := by
  unfold BracketState.closed at ok
  split at ok
  next => cases ok
  next outermost last =>
    cases ok
    obtain ⟨fits, held⟩ := legible.pending outermost (by rw [last]; exact List.mem_cons_self)
    refine ⟨fun b mem => absurd mem List.not_mem_nil, ?_, fun _ _ split => nomatch split⟩
    intro tree same
    cases same
    exact ⟨fits, (Row.legible_reverseOnto_iff _ _).mpr ⟨held, trivial⟩⟩
  next inner outer others pending =>
    cases ok
    have each := legible.pending
    rw [pending] at each
    obtain ⟨⟨fits, held⟩, ⟨fits', held'⟩, each⟩ :=
      (List.forall_mem_cons.trans (and_congr_right' List.forall_mem_cons)).mp each
    have below : inner.held.reverse.Legible :=
      (Row.legible_reverseOnto_iff _ _).mpr ⟨held, trivial⟩
    refine ⟨List.forall_mem_cons.mpr ⟨⟨?_, fits, below, held'⟩, each⟩, legible.root, ?_⟩
    · rcases fits' with word | ⟨empty, apart⟩
      · exact .inl word
      · exact .inr ⟨empty, (Row.startsWithWord_reverse_phrase _ _ _).trans apart⟩
    · intro inner' outer' split _ nothing
      cases split
      cases nothing

theorem Legible.leaf {letters : List Char} (legible : st.Legible (.word letters :: rest))
    (word : IsWord letters) (ok : st.leaf (String.ofList letters) = .ok next) :
    next.Legible rest := by
  unfold BracketState.leaf at ok
  split at ok
  next => cases ok
  next inner outer pending =>
    cases ok
    have each := legible.pending
    rw [pending] at each
    obtain ⟨⟨fits, held⟩, each⟩ := List.forall_mem_cons.mp each
    have spelled : IsWord (String.ofList letters).toList := by rwa [String.toList_ofList]
    refine ⟨List.forall_mem_cons.mpr ⟨⟨?_, spelled, held⟩, each⟩, legible.root, ?_⟩
    · rcases fits with label | ⟨empty, apart⟩
      · exact .inl label
      · have inside : inner.held ≠ .done := fun nothing =>
          legible.labelled inner outer pending empty nothing letters rest rfl
        exact .inr ⟨empty, (Row.startsWithWord_reverseOnto inside _ _).trans apart⟩
    · intro inner' outer' split _ nothing
      cases split
      cases nothing

/-- Whatever is read, the state stays legible. -/
theorem Legible.read {final : BracketState} (legible : st.Legible ahead)
    (words : ∀ letters, .word letters ∈ ahead → IsWord letters)
    (ok : st.read ahead = .ok final) : final.Legible [] := by
  fun_induction BracketState.read st ahead with
  | case1 st =>
    cases ok
    exact legible
  | case2 st letters rest ih =>
    obtain ⟨next, opened, ok⟩ := bind_eq_ok_iff.mp ok
    have word := words letters (List.mem_cons_of_mem _ List.mem_cons_self)
    refine ih next (legible.opened (.inl ?_) opened) (fun letters mem => ?_) ok
    · rwa [String.toList_ofList]
    · exact words letters (List.mem_cons_of_mem _ (List.mem_cons_of_mem _ mem))
  | case3 st rest apart ih =>
    obtain ⟨next, opened, ok⟩ := bind_eq_ok_iff.mp ok
    refine ih next (legible.opened (.inr ⟨rfl, apart⟩) opened) (fun letters mem => ?_) ok
    exact words letters (List.mem_cons_of_mem _ mem)
  | case4 st rest ih =>
    obtain ⟨next, closed, ok⟩ := bind_eq_ok_iff.mp ok
    refine ih next (legible.closed closed) (fun letters mem => ?_) ok
    exact words letters (List.mem_cons_of_mem _ mem)
  | case5 st letters rest ih =>
    obtain ⟨next, leaf, ok⟩ := bind_eq_ok_iff.mp ok
    refine ih next (legible.leaf (words letters List.mem_cons_self) leaf) (fun letters mem => ?_) ok
    exact words letters (List.mem_cons_of_mem _ mem)

end BracketState

/-- Whatever is read is legible. -/
theorem ParseTree.legible_of_parse {text : String} {tree : ParseTree}
    (ok : ParseTree.parse text = .ok tree) : tree.Legible := by
  obtain ⟨final, read, finish⟩ := bind_eq_ok_iff.mp ok
  have start : BracketState.Legible {} (symbols text) :=
    { pending := fun b mem => absurd mem List.not_mem_nil
      root := fun _ same => nomatch same
      labelled := fun _ _ split => nomatch split }
  have legible := start.read (fun _ => isWord_of_mem_symbols) read
  unfold BracketState.finish at finish
  split at finish
  next => cases finish
  next =>
    split at finish
    next => cases finish
    next root =>
      cases finish
      exact legible.root _ root

/-- A tree that is read from some text is read back from its own bracketed form, and so with the
same nodes under the same numbers.  The trees that are read at all are the legible ones. -/
theorem ParseTree.parse_penn_tfae (tree : ParseTree) :
    [∃ text, ParseTree.parse text = .ok tree, ParseTree.parse tree.penn = .ok tree,
      tree.Legible].TFAE := by
  tfae_have 1 → 3 := fun ⟨_, ok⟩ => legible_of_parse ok
  tfae_have 3 → 2 := fun legible => legible.parse_penn
  tfae_have 2 → 1 := fun ok => ⟨_, ok⟩
  tfae_finish

-- no label, no children, and a word between brackets
example : (ParseTree.parse "((A)(B b)c (()))").map ParseTree.penn = .ok "( (A) (B b) c ( ()))" := by
  rfl

end Discourse
