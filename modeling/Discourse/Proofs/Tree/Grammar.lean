import Discourse.Proofs.Brackets
import Discourse.Proofs.Tree.LeafWords
import Discourse.Tree.Node
/-!
# The grammar of bracketed texts

A text is a tree exactly if its symbols are one bracket: on the way through them more brackets have
been opened than closed, and at the end as many (`OneBracket`).  The stack of the reader is only the
number of open brackets together with what they hold, so that it runs dry at the last symbol and not
before (`BracketState.exists_read`).  The other way round nothing of the text is lost: the symbols
of the tree that is read are the symbols of the text (`ParseTree.symbols_of_parse`), and the symbols
of a tree are one bracket.

How a text falls into symbols is said without the reader too (`Spelled`): blanks stand between
symbols, and a word goes on as far as it can.
-/

namespace Discourse

/-! ## Symbols -/

/-- How characters spell a row of symbols. -/
inductive Spelled : List Char → List Symbol → Prop
  | nothing : Spelled [] []
  | blank {c cs row} : Text.isBlank c = true → Spelled cs row → Spelled (c :: cs) row
  | opening {cs row} : Spelled cs row → Spelled ('(' :: cs) (.opening :: row)
  | closing {cs row} : Spelled cs row → Spelled (')' :: cs) (.closing :: row)
  | word {letters cs row} : IsWord letters → (∀ c ∈ cs.head?, ¬ IsPlain c) → Spelled cs row →
      Spelled (letters ++ cs) (.word letters :: row)

theorem not_isPlain_of_isBlank {c : Char} (blank : Text.isBlank c = true) : ¬ IsPlain c := by
  intro plain
  exact Bool.noConfusion (blank.symm.trans plain.2.2)

theorem consSymbol_blank {c : Char} (blank : Text.isBlank c = true) (st : List Symbol × Bool) :
    consSymbol c st = (st.1, false) := by
  have noOpening : c ≠ '(' := by
    rintro rfl
    exact absurd blank (by decide)
  have noClosing : c ≠ ')' := by
    rintro rfl
    exact absurd blank (by decide)
  unfold consSymbol
  dsimp only
  rw [if_neg noOpening, if_neg noClosing, if_pos blank]

/-- A row of symbols starts with a word at the very next character if that character is plain. -/
theorem joined_iff (cs : List Char) :
    (cs.foldr consSymbol ([], false)).2 = true ↔ ∃ c ∈ cs.head?, IsPlain c := by
  cases cs with
  | nil => simp
  | cons c rest =>
    simp only [List.foldr_cons, List.head?_cons, Option.mem_def, Option.some.injEq, exists_eq_left']
    generalize rest.foldr consSymbol ([], false) = st
    by_cases opening : c = '('
    · subst opening
      exact iff_of_false Bool.false_ne_true fun plain => plain.1 rfl
    by_cases closing : c = ')'
    · subst closing
      exact iff_of_false Bool.false_ne_true fun plain => plain.2.1 rfl
    cases blank : Text.isBlank c with
    | true =>
      rw [consSymbol_blank blank]
      exact iff_of_false Bool.false_ne_true (not_isPlain_of_isBlank blank)
    | false =>
      have plain : IsPlain c := ⟨opening, closing, blank⟩
      refine iff_of_true ?_ plain
      unfold consSymbol
      dsimp only
      rw [if_neg opening, if_neg closing, if_neg (Bool.eq_false_iff.mp blank)]
      split <;> rfl

theorem Spelled.charSymbols_eq {cs : List Char} {row : List Symbol} (h : Spelled cs row) :
    charSymbols cs = row := by
  induction h with
  | nothing => rfl
  | blank blank _ ih =>
    rw [charSymbols, List.foldr_cons, consSymbol_blank blank]
    exact ih
  | opening _ ih =>
    exact (charSymbols_append_opening [] _).trans (congrArg (Symbol.opening :: ·) ih)
  | closing _ ih =>
    exact (charSymbols_append_closing [] _).trans (congrArg (Symbol.closing :: ·) ih)
  | @word letters cs row word ends _ ih =>
    have apart : (cs.foldr consSymbol ([], false)).2 = false := by
      rw [Bool.eq_false_iff, Ne, joined_iff]
      rintro ⟨c, first, plain⟩
      exact ends c first plain
    have behind : cs.foldr consSymbol ([], false) = (row, false) := Prod.ext ih apart
    rw [charSymbols, List.foldr_append, behind, word.foldr_consSymbol]

/-- Where a plain character comes next a word does. -/
theorem Spelled.exists_word {c : Char} {cs : List Char} {row : List Symbol}
    (h : Spelled (c :: cs) row) (plain : IsPlain c) :
    ∃ letters back tail, c :: cs = letters ++ back ∧ row = .word letters :: tail ∧
      IsWord letters ∧ (∀ d ∈ back.head?, ¬ IsPlain d) ∧ Spelled back tail := by
  generalize same : c :: cs = all at h
  cases h with
  | nothing => cases same
  | blank blank _ =>
    cases same
    exact absurd plain (not_isPlain_of_isBlank blank)
  | opening _ =>
    cases same
    exact absurd rfl plain.1
  | closing _ =>
    cases same
    exact absurd rfl plain.2.1
  | word word ends rest => exact ⟨_, _, _, rfl, rfl, word, ends, rest⟩

theorem spelled_charSymbols (cs : List Char) : Spelled cs (charSymbols cs) := by
  induction cs with
  | nil => exact .nothing
  | cons c rest ih =>
    by_cases opening : c = '('
    · subst opening
      rw [show '(' :: rest = [] ++ '(' :: rest from rfl, charSymbols_append_opening]
      exact .opening ih
    by_cases closing : c = ')'
    · subst closing
      rw [show ')' :: rest = [] ++ ')' :: rest from rfl, charSymbols_append_closing]
      exact .closing ih
    cases blank : Text.isBlank c with
    | true =>
      rw [charSymbols, List.foldr_cons, consSymbol_blank blank]
      exact .blank blank ih
    | false =>
      have plain : IsPlain c := ⟨opening, closing, blank⟩
      rw [charSymbols, List.foldr_cons, ← Prod.eta (rest.foldr _ _)]
      cases joined : (rest.foldr consSymbol ([], false)).2 with
      | false =>
        have ends : ∀ d ∈ rest.head?, ¬ IsPlain d := by
          intro d first plain
          have starts := (joined_iff rest).mpr ⟨d, first, plain⟩
          exact Bool.noConfusion (joined.symm.trans starts)
        have letter : IsWord [c] := ⟨List.cons_ne_nil c [], by simpa using plain⟩
        rw [consSymbol_apart plain]
        exact Spelled.word letter ends ih
      | true =>
        obtain ⟨d, first, starts⟩ := (joined_iff rest).mp joined
        obtain ⟨others, rfl⟩ := List.head?_eq_some_iff.mp first
        obtain ⟨letters, back, tail, split, row, word, ends, spelled⟩ := ih.exists_word starts
        have read : (List.foldr consSymbol ([], false) (d :: others)).1 =
            .word letters :: tail := row
        rw [read, consSymbol_joined plain, split]
        have longer : IsWord (c :: letters) :=
          ⟨List.cons_ne_nil c letters, List.forall_mem_cons.mpr ⟨plain, word.plain⟩⟩
        exact .word longer ends spelled

/-- The symbols of a text are the only ones that it spells. -/
theorem spelled_iff (text : String) (row : List Symbol) :
    Spelled text.toList row ↔ row = symbols text := by
  constructor
  · intro spelled
    exact spelled.charSymbols_eq.symm
  · rintro rfl
    exact spelled_charSymbols text.toList

/-! ## One bracket -/

/-- A row of symbols that is one bracket: it opens more brackets than it closes up to every place
inside it, and as many altogether. -/
structure OneBracket (row : List Symbol) : Prop where
  nonempty : row ≠ []
  /-- A word stands inside of a bracket. -/
  noWord : ∀ letters, row ≠ [.word letters]
  inside : ∀ front, front <+: row → front ≠ [] → front ≠ row →
    front.count .closing < front.count .opening
  closed : row.count .opening = row.count .closing

/-- A row of symbols that leaves as many brackets open as there were, and closes none of them. -/
structure Level (row : List Symbol) : Prop where
  inside : ∀ front, front <+: row → front.count .closing ≤ front.count .opening
  closed : row.count .opening = row.count .closing

theorem level_iff_balanced {row : List Symbol} : Level row ↔ Balanced .opening .closing row :=
  ⟨fun h => ⟨h.inside, h.closed⟩, fun h => ⟨h.inside, h.closed⟩⟩

theorem Level.nil : Level [] := level_iff_balanced.mpr .nil

theorem Level.word (letters : List Char) : Level [.word letters] :=
  level_iff_balanced.mpr (.single Symbol.noConfusion Symbol.noConfusion)

theorem Level.append {row row' : List Symbol} (h : Level row) (h' : Level row') :
    Level (row ++ row') :=
  level_iff_balanced.mpr ((level_iff_balanced.mp h).append (level_iff_balanced.mp h'))

theorem Level.oneBracket {row : List Symbol} (h : Level row) :
    OneBracket (.opening :: (row ++ [.closing])) where
  nonempty := List.cons_ne_nil _ _
  noWord := by
    intro letters same
    cases same
  inside := by
    intro front within some proper
    rcases List.prefix_cons_iff.mp within with rfl | ⟨rest, rfl, later⟩
    · exact absurd rfl some
    · rcases List.prefix_concat_iff.mp later with rfl | before
      · exact absurd rfl proper
      · have before := h.inside rest before
        rw [List.count_cons_self, List.count_cons_of_ne (by decide)]
        omega
  closed := by
    have closed := h.closed
    simp [List.count_append, closed]

theorem OneBracket.level {row : List Symbol} (h : OneBracket row) : Level row where
  inside := by
    intro front within
    by_cases nothing : front = []
    · rw [nothing]
      exact Nat.le_refl _
    by_cases all : front = row
    · subst all
      exact Nat.le_of_eq h.closed.symm
    · exact Nat.le_of_lt (h.inside front within nothing all)
  closed := h.closed

theorem level_labelSymbols (label : String) : Level (labelSymbols label) := by
  rw [labelSymbols]
  split
  · exact .nil
  · exact .word _

theorem Row.oneBracket_phrase {below : Row} (level : Level below.symbols) (label : String) :
    OneBracket (.opening :: (labelSymbols label ++ below.symbols ++ [.closing])) :=
  ((level_labelSymbols label).append level).oneBracket

theorem Row.level_symbols (row : Row) : Level row.symbols := by
  induction row with
  | done => exact .nil
  | word text next ih => exact (Level.word text.toList).append ih
  | phrase label below next below_ih next_ih =>
    have parts : (phrase label below next).symbols =
        .opening :: (labelSymbols label ++ below.symbols ++ [.closing]) ++ next.symbols := by
      simp [symbols]
    rw [parts]
    exact (oneBracket_phrase below_ih label).level.append next_ih

theorem ParseTree.oneBracket_symbols (tree : ParseTree) : OneBracket tree.asRow.symbols := by
  have bracket := Row.oneBracket_phrase tree.below.level_symbols tree.label
  have parts : tree.asRow.symbols =
      .opening :: (labelSymbols tree.label ++ tree.below.symbols ++ [.closing]) := by
    simp [asRow, Row.symbols]
  rw [parts]
  exact bracket

/-! ## What has been read -/

theorem Row.symbols_reverseOnto (a b : Row) :
    (a.reverseOnto b).symbols = a.reverse.symbols ++ b.symbols := by
  induction a generalizing b with
  | done => rfl
  | word text next ih =>
    rw [reverse, reverseOnto, reverseOnto, ih, ih (word text done), List.append_assoc]
    rfl
  | phrase label below next _ ih =>
    rw [reverse, reverseOnto, reverseOnto, ih, ih (phrase label below done), List.append_assoc]
    simp [symbols]

/-- The symbols that open brackets have taken up, from the outermost on. -/
def openSymbols : List OpenBracket → List Symbol
  | [] => []
  | inner :: outer =>
    openSymbols outer ++ .opening :: labelSymbols inner.label ++ inner.held.reverse.symbols

namespace BracketState

variable {st next : BracketState}

/-- The symbols read so far. -/
def symbols (st : BracketState) : List Symbol :=
  (st.root?.toList.flatMap fun tree => tree.asRow.symbols) ++ openSymbols st.pending

theorem symbols_opened {label : String} (ok : st.opened label = .ok next) :
    next.symbols = st.symbols ++ .opening :: labelSymbols label := by
  unfold opened at ok
  split at ok
  next => cases ok
  next =>
    cases ok
    simp [symbols, openSymbols, Row.reverse, Row.reverseOnto, Row.symbols]

theorem symbols_closed (single : st.Single) (ok : st.closed = .ok next) :
    next.symbols = st.symbols ++ [.closing] := by
  unfold closed at ok
  split at ok
  next => cases ok
  next outermost pending =>
    cases ok
    have unset := single (by simp [pending])
    simp [symbols, openSymbols, pending, unset, ParseTree.asRow, Row.symbols]
  next inner outer rest pending =>
    cases ok
    have unset := single (by simp [pending])
    have held : (Row.phrase inner.label inner.held.reverse outer.held).reverse.symbols =
        outer.held.reverse.symbols ++ (Row.phrase inner.label inner.held.reverse .done).symbols :=
      Row.symbols_reverseOnto outer.held _
    simp [symbols, openSymbols, pending, unset, held, Row.symbols]

theorem symbols_leaf {text : String} (ok : st.leaf text = .ok next) :
    next.symbols = st.symbols ++ [.word text.toList] := by
  unfold leaf at ok
  split at ok
  next => cases ok
  next inner rest pending =>
    cases ok
    have held : (Row.word text inner.held).reverse.symbols =
        inner.held.reverse.symbols ++ [.word text.toList] :=
      Row.symbols_reverseOnto inner.held (.word text .done)
    simp [symbols, openSymbols, pending, held]

/-- Reading takes up every symbol, a label with its bracket. -/
theorem symbols_read {final : BracketState} {ahead : List Symbol} (single : st.Single)
    (words : ∀ letters, .word letters ∈ ahead → IsWord letters)
    (ok : st.read ahead = .ok final) : final.symbols = st.symbols ++ ahead := by
  fun_induction BracketState.read st ahead with
  | case1 st =>
    cases ok
    exact (List.append_nil _).symm
  | case2 st letters rest ih =>
    obtain ⟨next, opened, ok⟩ := bind_eq_ok_iff.mp ok
    have word := words letters (List.mem_cons_of_mem _ List.mem_cons_self)
    have label : labelSymbols (String.ofList letters) = [.word letters] := by
      have spelled : IsWord (String.ofList letters).toList := by rwa [String.toList_ofList]
      rw [labelSymbols, if_neg spelled.ne_empty, String.toList_ofList]
    have others : ∀ letters, .word letters ∈ rest → IsWord letters := fun letters mem =>
      words letters (List.mem_cons_of_mem _ (List.mem_cons_of_mem _ mem))
    rw [ih next (leaves_opened single opened).2 others ok, symbols_opened opened, label]
    simp
  | case3 st rest apart ih =>
    obtain ⟨next, opened, ok⟩ := bind_eq_ok_iff.mp ok
    have others : ∀ letters, .word letters ∈ rest → IsWord letters := fun letters mem =>
      words letters (List.mem_cons_of_mem _ mem)
    rw [ih next (leaves_opened single opened).2 others ok, symbols_opened opened]
    simp [labelSymbols]
  | case4 st rest ih =>
    obtain ⟨next, closed, ok⟩ := bind_eq_ok_iff.mp ok
    have others : ∀ letters, .word letters ∈ rest → IsWord letters := fun letters mem =>
      words letters (List.mem_cons_of_mem _ mem)
    rw [ih next (leaves_closed single closed).2 others ok, symbols_closed single closed]
    simp
  | case5 st letters rest ih =>
    obtain ⟨next, leaf, ok⟩ := bind_eq_ok_iff.mp ok
    have others : ∀ letters, .word letters ∈ rest → IsWord letters := fun letters mem =>
      words letters (List.mem_cons_of_mem _ mem)
    rw [ih next (leaves_leaf single leaf).2 others ok, symbols_leaf leaf]
    simp

theorem finish_eq_ok_iff {tree : ParseTree} :
    st.finish = .ok tree ↔ st.pending = [] ∧ st.root? = some tree := by
  unfold finish
  cases pending : st.pending with
  | cons inner outer => simp
  | nil => cases root : st.root? <;> simp

end BracketState

/-- Nothing of a text is lost in its tree. -/
theorem ParseTree.symbols_of_parse {text : String} {tree : ParseTree}
    (ok : ParseTree.parse text = .ok tree) : tree.asRow.symbols = symbols text := by
  obtain ⟨final, read, finish⟩ := bind_eq_ok_iff.mp ok
  obtain ⟨pending, root⟩ := BracketState.finish_eq_ok_iff.mp finish
  have taken := BracketState.symbols_read (fun some => absurd rfl some)
    (fun _ => isWord_of_mem_symbols) read
  simpa [BracketState.symbols, openSymbols, pending, root] using taken

/-! ## What can be read -/

/-- The last symbol ahead closes the last of `depth` open brackets, and none before it does. -/
structure Closes (depth : Nat) (ahead : List Symbol) : Prop where
  inside : ∀ front, front <+: ahead → front ≠ ahead →
    front.count .closing < depth + front.count .opening
  closed : depth + ahead.count .opening = ahead.count .closing

namespace Closes

variable {depth depth' : Nat} {rest : List Symbol}

theorem drop (taken : List Symbol) (h : Closes depth (taken ++ rest))
    (same : depth' + taken.count .closing = depth + taken.count .opening) : Closes depth' rest where
  inside := by
    intro front within proper
    have before := h.inside (taken ++ front) ((List.prefix_append_right_inj taken).mpr within)
      (fun all => proper (List.append_cancel_left all))
    rw [List.count_append, List.count_append] at before
    omega
  closed := by
    have closed := h.closed
    rw [List.count_append, List.count_append] at closed
    omega

/-- Nothing follows the symbol that closes the last bracket. -/
theorem eq_nil (h : Closes 1 (.closing :: rest)) : rest = [] := by
  cases rest with
  | nil => rfl
  | cons next others =>
    have within : [Symbol.closing] <+: .closing :: next :: others :=
      (List.prefix_cons_inj _).mpr List.nil_prefix
    exact absurd (h.inside [.closing] within (by simp)) (Nat.lt_irrefl 1)

end Closes

/-- One bracket is an opening bracket with symbols that close it. -/
theorem OneBracket.exists_closes {row : List Symbol} (h : OneBracket row) :
    ∃ rest, row = .opening :: rest ∧ Closes 1 rest := by
  cases row with
  | nil => exact absurd rfl h.nonempty
  | cons first rest =>
    by_cases last : rest = []
    · -- a single symbol opens as many brackets as it closes only if it is a word
      subst last
      cases first with
      | opening => exact absurd h.closed (by decide)
      | closing => exact absurd h.closed (by decide)
      | word letters => exact absurd rfl (h.noWord letters)
    · have proper : [first] ≠ first :: rest := by
        intro same
        exact last (List.cons.inj same).2.symm
      have opens := h.inside [first] ((List.prefix_cons_inj first).mpr List.nil_prefix)
        (List.cons_ne_nil first []) proper
      cases first with
      | closing => exact absurd opens (by decide)
      | word letters => exact absurd opens (Nat.lt_irrefl 0)
      | opening =>
        refine ⟨rest, rfl, ?_, ?_⟩
        · intro front within proper
          have before := h.inside (.opening :: front) ((List.prefix_cons_inj _).mpr within)
            (List.cons_ne_nil _ _) (fun all => proper (List.cons.inj all).2)
          simpa [Nat.add_comm] using before
        · simpa [Nat.add_comm] using h.closed

namespace BracketState

/-- A tree is read where the symbols ahead close all open brackets. -/
theorem exists_read {st : BracketState} {ahead : List Symbol} (unset : st.root? = none)
    (pending : st.pending ≠ []) (closes : Closes st.pending.length ahead) :
    ∃ tree, st.read ahead = .ok ⟨[], some tree⟩ := by
  fun_induction BracketState.read st ahead with
  | case1 st =>
    have none : st.pending.length = 0 := closes.closed
    exact absurd (List.length_eq_zero_iff.mp none) pending
  | case2 st letters rest ih =>
    have opened : st.opened (String.ofList letters) =
        .ok { st with pending := ⟨String.ofList letters, .done⟩ :: st.pending } := by
      simp [BracketState.opened, unset]
    rw [opened]
    exact ih _ unset (List.cons_ne_nil _ _) (closes.drop [.opening, .word letters] rfl)
  | case3 st rest apart ih =>
    have opened : st.opened "" = .ok { st with pending := ⟨"", .done⟩ :: st.pending } := by
      simp [BracketState.opened, unset]
    rw [opened]
    exact ih _ unset (List.cons_ne_nil _ _) (closes.drop [.opening] rfl)
  | case4 st rest ih =>
    obtain ⟨open_, root?⟩ := st
    cases open_ with
    | nil => exact absurd rfl pending
    | cons inner around =>
      cases around with
      | nil =>
        rw [closes.eq_nil]
        exact ⟨_, rfl⟩
      | cons outer others =>
        exact ih _ unset (List.cons_ne_nil _ _) (closes.drop [.closing] rfl)
  | case5 st letters rest ih =>
    obtain ⟨open_, root?⟩ := st
    cases open_ with
    | nil => exact absurd rfl pending
    | cons inner outer =>
      exact ih _ unset (List.cons_ne_nil _ _) (closes.drop [.word letters] rfl)

end BracketState

theorem ParseTree.exists_parse {text : String} (bracket : OneBracket (symbols text)) :
    ∃ tree, ParseTree.parse text = .ok tree := by
  obtain ⟨rest, row, closes⟩ := bracket.exists_closes
  suffices read : ∃ tree, BracketState.read {} (.opening :: rest) = .ok ⟨[], some tree⟩ by
    obtain ⟨tree, read⟩ := read
    refine ⟨tree, ?_⟩
    rw [ParseTree.parse, row, read]
    rfl
  have inside (label : String) : ∀ ahead, Closes 1 ahead →
      ∃ tree, BracketState.read ⟨[⟨label, .done⟩], none⟩ ahead = .ok ⟨[], some tree⟩ := by
    intro ahead closes
    exact BracketState.exists_read rfl (List.cons_ne_nil _ _) closes
  by_cases labelled : ∃ letters others, rest = .word letters :: others
  · obtain ⟨letters, others, rfl⟩ := labelled
    exact inside (String.ofList letters) others (closes.drop [.word letters] rfl)
  · have unlabelled : BracketState.read {} (.opening :: rest) =
        BracketState.read ⟨[⟨"", .done⟩], none⟩ rest := by
      rw [BracketState.read]
      · rfl
      · intro letters others same
        exact labelled ⟨letters, others, same⟩
    rw [unlabelled]
    exact inside "" rest closes

/-! ## What stops the reader -/

/-- A computation that is stopped by nothing but a malformed tree. -/
def OnlyMalformed {α : Type} (x : Except Fault α) : Prop :=
  ∀ fault, x = .error fault → ∃ reason, fault = .malformedTree reason

theorem OnlyMalformed.bind {α β : Type} {x : Except Fault α} {f : α → Except Fault β}
    (h : OnlyMalformed x) (h' : ∀ a, OnlyMalformed (f a)) : OnlyMalformed (x >>= f) := by
  intro fault stopped
  cases x with
  | error first =>
    have same : first = fault := Except.error.inj stopped
    exact h fault (congrArg Except.error same)
  | ok a => exact h' a fault stopped

namespace BracketState

theorem opened_onlyMalformed (st : BracketState) (label : String) :
    OnlyMalformed (st.opened label) := by
  intro fault stopped
  unfold opened at stopped
  split at stopped <;> cases stopped
  exact ⟨_, rfl⟩

theorem closed_onlyMalformed (st : BracketState) : OnlyMalformed st.closed := by
  intro fault stopped
  unfold closed at stopped
  split at stopped <;> cases stopped
  exact ⟨_, rfl⟩

theorem leaf_onlyMalformed (st : BracketState) (text : String) : OnlyMalformed (st.leaf text) := by
  intro fault stopped
  unfold leaf at stopped
  split at stopped <;> cases stopped
  exact ⟨_, rfl⟩

theorem finish_onlyMalformed (st : BracketState) : OnlyMalformed st.finish := by
  intro fault stopped
  unfold finish at stopped
  split at stopped
  · cases stopped
    exact ⟨_, rfl⟩
  · split at stopped <;> cases stopped
    exact ⟨_, rfl⟩

theorem read_onlyMalformed (st : BracketState) (ahead : List Symbol) :
    OnlyMalformed (st.read ahead) := by
  fun_induction BracketState.read st ahead with
  | case1 st =>
    intro fault stopped
    cases stopped
  | case2 st letters rest ih => exact (st.opened_onlyMalformed _).bind ih
  | case3 st rest apart ih => exact (st.opened_onlyMalformed _).bind ih
  | case4 st rest ih => exact st.closed_onlyMalformed.bind ih
  | case5 st letters rest ih => exact (st.leaf_onlyMalformed _).bind ih

end BracketState

theorem ParseTree.parse_onlyMalformed (text : String) : OnlyMalformed (ParseTree.parse text) :=
  (BracketState.read_onlyMalformed {} (symbols text)).bind BracketState.finish_onlyMalformed

/-! ## Labels -/

/-- The labels of the brackets of a row of symbols, in the order in which they are opened: the word
right behind the opening bracket, if there is one. -/
def bracketLabels : List Symbol → List String
  | [] => []
  | .opening :: .word letters :: rest => String.ofList letters :: bracketLabels rest
  | .opening :: rest => "" :: bracketLabels rest
  | .closing :: rest => bracketLabels rest
  | .word _ :: rest => bracketLabels rest

/-- The labels of the phrases among some nodes. -/
def phraseLabels (nodes : List Node) : List String :=
  (nodes.filter fun node => !node.isLeaf).map Node.label

/-- The words among some nodes. -/
def nodeWords (nodes : List Node) : List String := (nodes.filter Node.isLeaf).map Node.label

namespace Row

theorem phraseLabels_nodes {row : Row} (legible : row.Legible) (parent? : Option Nat)
    (id leaf : Nat) (rest : List Symbol) :
    bracketLabels (row.symbols ++ rest) =
      phraseLabels (row.nodes parent? id leaf) ++ bracketLabels rest := by
  induction row generalizing parent? id leaf rest with
  | done => rfl
  | word text next ih => exact ih legible.2 parent? (id + 1) (leaf + 1) rest
  | phrase label below next below_ih next_ih =>
    obtain ⟨fits, below_legible, next_legible⟩ := legible
    have first : bracketLabels ((phrase label below next).symbols ++ rest) =
        label :: bracketLabels (below.symbols ++ .closing :: (next.symbols ++ rest)) := by
      rcases fits with word | ⟨rfl, apart⟩
      · simp [symbols, labelSymbols, word.ne_empty, bracketLabels]
      · simp only [symbols, labelSymbols, if_true, List.cons_append, List.nil_append,
          List.append_assoc]
        rw [bracketLabels]
        exact symbols_ne_word apart _
    rw [first, below_ih below_legible (some id) (id + 1) leaf, bracketLabels,
      next_ih next_legible parent? (id + 1 + below.size) (leaf + below.leafCount)]
    simp [nodes, phraseLabels, Node.isLeaf]

theorem nodeWords_nodes (row : Row) (parent? : Option Nat) (id leaf : Nat) :
    nodeWords (row.nodes parent? id leaf) = row.leaves := by
  induction row generalizing parent? id leaf with
  | done => rfl
  | word text next ih => exact congrArg (text :: ·) (ih parent? (id + 1) (leaf + 1))
  | phrase label below next below_ih next_ih =>
    rw [leaves, ← below_ih (some id) (id + 1) leaf,
      ← next_ih parent? (id + 1 + below.size) (leaf + below.leafCount)]
    simp [nodes, nodeWords, Node.isLeaf]

end Row

/-- A text is a tree exactly if its symbols are one bracket.  The tree then has the symbols of the
text: its leaves are the words that do not stand right behind an opening bracket, and each of its
brackets has the word right behind it for a label, if there is one. -/
theorem ParseTree.parse_iff_oneBracket (text : String) :
    (∀ row, Spelled text.toList row ↔ row = symbols text) ∧
    (OneBracket (symbols text) → ∃ tree, ParseTree.parse text = .ok tree ∧
      tree.asRow.symbols = symbols text ∧
      nodeWords tree.nodes = leafWords (symbols text) ∧
      phraseLabels tree.nodes = bracketLabels (symbols text)) ∧
    (¬ OneBracket (symbols text) → ∃ reason,
      ParseTree.parse text = .error (.malformedTree reason)) := by
  refine ⟨spelled_iff text, ?_, ?_⟩
  · intro bracket
    obtain ⟨tree, ok⟩ := exists_parse bracket
    have all := symbols_of_parse ok
    have legible : tree.asRow.Legible := by
      obtain ⟨fits, below⟩ := legible_of_parse ok
      exact ⟨fits, below, trivial⟩
    refine ⟨tree, ok, all, ?_, ?_⟩
    · rw [← leaves_of_parse ok, nodes, Row.nodeWords_nodes]
      exact List.append_nil _
    · have labels := Row.phraseLabels_nodes legible none 0 0 []
      rw [List.append_nil, all] at labels
      rw [labels, bracketLabels, List.append_nil]
      rfl
  · intro broken
    cases result : ParseTree.parse text with
    | ok tree => exact absurd (symbols_of_parse result ▸ tree.oneBracket_symbols) broken
    | error fault =>
      obtain ⟨reason, rfl⟩ := parse_onlyMalformed text fault result
      exact ⟨reason, rfl⟩

/-- A single word has no bracket at all, and no proper prefix but the empty one. -/
theorem ParseTree.parse_lone_word :
    (symbols "x" ≠ [] ∧
      (∀ front, front <+: symbols "x" → front ≠ [] → front ≠ symbols "x" →
        front.count .closing < front.count .opening) ∧
      (symbols "x").count .opening = (symbols "x").count .closing) ∧
    ParseTree.parse "x" = .error (.malformedTree "leaf outside of any bracket") := by
  have word : symbols "x" = [.word ['x']] := by rfl
  refine ⟨⟨by rw [word]; exact List.cons_ne_nil _ _, ?_, by rw [word]; rfl⟩, by rfl⟩
  rw [word]
  intro front within some proper
  rcases List.prefix_cons_iff.mp within with rfl | ⟨rest, rfl, later⟩
  · exact absurd rfl some
  · rw [List.prefix_nil.mp later] at proper
    exact absurd rfl proper

end Discourse
