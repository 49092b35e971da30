import Mathlib.Data.List.Basic
import Discourse.Proofs.Column.LineByLine
import Discourse.Proofs.Text.Words
import Discourse.Proofs.Tree.LeafWords
/-!
# Trees and tokens of a column file

The tree of a sentence is read from the brackets of its lines with each token, in brackets of its
own, at the place of the star.  Nothing checks that the leaves of the tree are the words of the
tokens.  They are so exactly if the words that the text of the tree has behind no opening bracket
are the words of the tokens (`Sentence.aligned_iff`); where no tag has a bracket in it, exactly if
no word has one either and the brackets bring no words but labels (`readColumnFile_aligned`).
-/

namespace Discourse

/-- A sentence with a tree that has the words of the tokens as its leaves. -/
def Sentence.Aligned (s : Sentence) : Prop :=
  ∃ tree, s.parse? = some tree ∧ tree.leaves = s.tokens.map Token.word

/-- A text without brackets. -/
def IsBracketFree (text : String) : Prop := '(' ∉ text.toList ∧ ')' ∉ text.toList

theorem IsBracketFree.isWord {text : String} (free : IsBracketFree text)
    (word : Text.IsWord text.toList) : IsWord text.toList := by
  refine ⟨word.nonempty, fun c mem => ⟨?_, ?_, word.solid c mem⟩⟩
  · rintro rfl
    exact free.1 mem
  · rintro rfl
    exact free.2 mem

theorem IsWord.isBracketFree {text : String} (word : IsWord text.toList) : IsBracketFree text :=
  ⟨fun mem => (word.plain _ mem).1 rfl, fun mem => (word.plain _ mem).2.1 rfl⟩

namespace TokenRow

/-- The brackets of a line with some text at the place of the token. -/
def around (row : TokenRow) (leaf : String) : String :=
  match Text.cutAt? '*' (Text.replace "NOPARSE" "X" row.parseBit) with
  | some (before, after) => before ++ leaf ++ after
  | none => leaf

theorem bracketed_eq (row : TokenRow) :
    row.bracketed = row.around ("(" ++ row.pos ++ " " ++ row.word ++ ")") := by
  unfold bracketed around
  generalize Text.cutAt? '*' (Text.replace "NOPARSE" "X" row.parseBit) = parts?
  cases parts? with
  | none => rfl
  | some parts => rfl

theorem exists_around (row : TokenRow) :
    ∃ before after : String, ∀ leaf, row.around leaf = before ++ leaf ++ after := by
  unfold around
  split
  next before after _ => exact ⟨before, after, fun _ => rfl⟩
  next => exact ⟨"", "", fun leaf => by simp⟩

/-- The tag and the word of a line are read as one word each. -/
structure IsLegible (row : TokenRow) : Prop where
  pos : IsWord row.pos.toList
  word : IsWord row.word.toList

/-- The token stands in the symbols of a line where an empty bracket would stand. -/
theorem IsLegible.exists_symbols {row : TokenRow} (legible : row.IsLegible) :
    ∃ before after : List Symbol,
      symbols row.bracketed = before ++ .opening :: .word row.pos.toList ::
        .word row.word.toList :: .closing :: after ∧
      symbols (row.around "()") = before ++ .opening :: .closing :: after := by
  obtain ⟨before, after, around⟩ := row.exists_around
  refine ⟨charSymbols before.toList, charSymbols after.toList, ?_, ?_⟩
  · rw [bracketed_eq, around, ← charSymbols_leaf legible.pos legible.word, symbols_eq]
    refine congrArg charSymbols ?_
    simp
  · rw [around, symbols_eq]
    have empty : (before ++ "()" ++ after).toList =
        before.toList ++ '(' :: ([] ++ ')' :: after.toList) := by
      simp
    rw [empty, charSymbols_append_opening, charSymbols_append_closing]
    rfl

end TokenRow

/-- The leaves of some lines: each token is one, and the others are those that are left with empty
brackets in place of the tokens. -/
theorem leafWords_lines {rows : List TokenRow} (legible : ∀ row ∈ rows, row.IsLegible)
    (front : List Symbol) :
    (leafWords (front ++ rows.flatMap fun row => symbols row.bracketed)).length =
        rows.length +
          (leafWords (front ++ rows.flatMap fun row => symbols (row.around "()"))).length ∧
      (leafWords (front ++ rows.flatMap fun row => symbols (row.around "()")) = [] →
        leafWords (front ++ rows.flatMap fun row => symbols row.bracketed) =
          rows.map TokenRow.word) := by
  induction rows generalizing front with
  | nil => simp
  | cons row rest ih =>
    obtain ⟨first, others⟩ := List.forall_mem_cons.mp legible
    obtain ⟨before, after, withToken, without⟩ := first.exists_symbols
    obtain ⟨length, aligned⟩ := ih others after
    have whole : leafWords (front ++ (row :: rest).flatMap fun row => symbols row.bracketed) =
        leafWords (front ++ before) ++ row.word ::
          leafWords (after ++ rest.flatMap fun row => symbols row.bracketed) := by
      have leaf := leafWords_leaf (front ++ before)
        (after ++ rest.flatMap fun row => symbols row.bracketed) row.pos.toList row.word.toList
      rw [String.ofList_toList] at leaf
      rw [← leaf, List.flatMap_cons, withToken]
      simp only [List.append_assoc, List.cons_append]
    have bare : leafWords (front ++ (row :: rest).flatMap fun row => symbols (row.around "()")) =
        leafWords (front ++ before) ++
          leafWords (after ++ rest.flatMap fun row => symbols (row.around "()")) := by
      rw [← leafWords_empty, List.flatMap_cons, without]
      simp only [List.append_assoc, List.cons_append]
    rw [whole, bare]
    constructor
    · simp only [List.length_append, List.length_cons, length]
      omega
    · intro none
      obtain ⟨noneBefore, noneAfter⟩ := List.append_eq_nil_iff.mp none
      rw [noneBefore, aligned noneAfter]
      rfl

theorem symbols_intercalate (parts : List String) :
    symbols (" ".intercalate parts) = parts.flatMap symbols := by
  have spaced : (" ".intercalate parts).toList = [' '].intercalate (parts.map String.toList) :=
    String.toList_intercalate
  rw [symbols_eq, spaced, charSymbols_intercalate, List.flatMap_map]
  rfl

/-! ## Sentences -/

/-- The text that the tree of some lines is read from. -/
def treeText (rows : List TokenRow) : String := " ".intercalate (rows.map TokenRow.bracketed)

/-- The same text with empty brackets in place of the tokens. -/
def bracketText (rows : List TokenRow) : String :=
  " ".intercalate (rows.map fun row => row.around "()")

section Sentences

variable {rows : List TokenRow} {s : Sentence} {gold : List MentionSpan}

theorem parse?_of_readRows (read : readRows rows = .ok (s, gold)) :
    ∃ tree, s.parse? = some tree ∧ ParseTree.parse (treeText rows) = .ok tree := by
  rw [readRows] at read
  obtain ⟨named, -, read⟩ := bind_eq_ok_iff.mp read
  obtain ⟨coreferent, -, read⟩ := bind_eq_ok_iff.mp read
  obtain ⟨gold, -, read⟩ := bind_eq_ok_iff.mp read
  obtain ⟨tree, parse, read⟩ := bind_eq_ok_iff.mp read
  cases read
  exact ⟨tree, rfl, mapError_eq_ok_iff.mp parse⟩

/-- The leaves of the tree are the words of its text that are no labels. -/
theorem Sentence.aligned_iff (read : readRows rows = .ok (s, gold)) :
    s.Aligned ↔ leafWords (symbols (treeText rows)) = rows.map TokenRow.word := by
  obtain ⟨tree, parsed, parse⟩ := parse?_of_readRows read
  have words : s.tokens.map Token.word = rows.map TokenRow.word := map_word_of_readRows read
  rw [← ParseTree.leaves_of_parse parse, ← words]
  constructor
  · rintro ⟨tree', parsed', aligned⟩
    cases parsed.symm.trans parsed'
    exact aligned
  · intro aligned
    exact ⟨tree, parsed, aligned⟩

theorem isWord_of_mem_leafWords {row : List Symbol} {text : String}
    (words : ∀ letters, .word letters ∈ row → IsWord letters) (mem : text ∈ leafWords row) :
    IsWord text.toList := by
  fun_induction leafWords row with
  | case1 => cases mem
  | case2 letters rest ih => exact ih (fun letters' mem' => words letters' (by simp [mem'])) mem
  | case3 rest unlabelled ih => exact ih (fun letters' mem' => words letters' (by simp [mem'])) mem
  | case4 rest ih => exact ih (fun letters' mem' => words letters' (by simp [mem'])) mem
  | case5 letters rest ih =>
    rcases List.mem_cons.mp mem with rfl | mem
    · rw [String.toList_ofList]
      exact words letters List.mem_cons_self
    · exact ih (fun letters' mem' => words letters' (by simp [mem'])) mem

/-- No leaf has a bracket in it. -/
theorem Sentence.Aligned.isBracketFree (aligned : s.Aligned)
    (read : readRows rows = .ok (s, gold)) : ∀ row ∈ rows, IsBracketFree row.word := by
  intro row mem
  have word : row.word ∈ leafWords (symbols (treeText rows)) := by
    rw [(Sentence.aligned_iff read).mp aligned]
    exact List.mem_map_of_mem mem
  exact (isWord_of_mem_leafWords (fun _ => isWord_of_mem_symbols) word).isBracketFree

/-- Where tags have no brackets, it is the words and the brackets of the lines that matter. -/
theorem Sentence.aligned_iff_of_pos (read : readRows rows = .ok (s, gold))
    (solid : ∀ row ∈ rows, Text.IsWord row.pos.toList ∧ Text.IsWord row.word.toList)
    (tags : ∀ row ∈ rows, IsBracketFree row.pos) :
    s.Aligned ↔ (∀ row ∈ rows, IsBracketFree row.word) ∧
      leafWords (symbols (bracketText rows)) = [] := by
  have leaves : (∀ row ∈ rows, IsBracketFree row.word) →
      (leafWords (symbols (treeText rows)) = rows.map TokenRow.word ↔
        leafWords (symbols (bracketText rows)) = []) := by
    intro words
    have legible : ∀ row ∈ rows, row.IsLegible := fun row mem =>
      ⟨(tags row mem).isWord (solid row mem).1, (words row mem).isWord (solid row mem).2⟩
    obtain ⟨length, aligned⟩ := leafWords_lines legible []
    rw [List.nil_append, List.nil_append] at length aligned
    rw [treeText, bracketText, symbols_intercalate, symbols_intercalate, List.flatMap_map,
      List.flatMap_map]
    constructor
    · intro same
      rw [same, List.length_map] at length
      exact List.length_eq_zero_iff.mp (by omega)
    · exact aligned
  rw [Sentence.aligned_iff read]
  constructor
  · intro same
    have words := ((Sentence.aligned_iff read).mpr same).isBracketFree read
    exact ⟨words, (leaves words).mp same⟩
  · rintro ⟨words, none⟩
    exact (leaves words).mpr none

end Sentences

/-! ## Files -/

/-- A row with the fields of a token line of a text. -/
def TokenRow.IsFrom (row : TokenRow) (text : String) : Prop :=
  ∃ line ∈ Text.lines text, ColumnLine.ofString line = .row row.fields

/-- The fields of a line are words. -/
theorem ColumnLine.isWord_of_mem_fields {line : String} {fields : List String} {field : String}
    (kind : ColumnLine.ofString line = .row fields) (mem : field ∈ fields) :
    Text.IsWord field.toList := by
  unfold ColumnLine.ofString at kind
  dsimp only at kind
  split at kind
  next => cases kind
  next =>
    split at kind
    next => cases kind
    next =>
      split at kind
      next => cases kind
      next =>
        rw [← ColumnLine.row.inj kind] at mem
        exact Text.isWord_of_mem_words mem

theorem TokenRow.IsFrom.isWord_field {row : TokenRow} {text : String} (isFrom : row.IsFrom text)
    {i : Nat} (inside : i < row.fields.length) : Text.IsWord (row.field i).toList := by
  obtain ⟨line, -, kind⟩ := isFrom
  rw [TokenRow.field, List.getElem?_eq_getElem inside, Option.getD_some]
  exact ColumnLine.isWord_of_mem_fields kind (List.getElem_mem inside)

/-- Each sentence of a column file is read from token lines of its text.  It is aligned exactly if
the words of the text of its tree that are no labels are the words of its tokens, and never if a
word has a bracket in it; if no tag has one, it is aligned exactly if no word has one and the
brackets of the lines bring no words but labels. -/
theorem readColumnFile_aligned {text : String} {docs : List (Document × RawMentions)}
    (read : readColumnFile text = .ok docs) :
    ∀ built ∈ docs, ∀ s ∈ built.1.sentences, ∃ rows gold, readRows rows = .ok (s, gold) ∧
      (∀ row ∈ rows, row.IsFrom text) ∧
      (s.Aligned ↔ leafWords (symbols (treeText rows)) = rows.map TokenRow.word) ∧
      (s.Aligned → ∀ row ∈ rows, IsBracketFree row.word) ∧
      ((∀ row ∈ rows, IsBracketFree row.pos) → (s.Aligned ↔
        (∀ row ∈ rows, IsBracketFree row.word) ∧ leafWords (symbols (bracketText rows)) = [])) := by
  intro built mem s inside
  rw [readColumnFile_eq] at read
  obtain ⟨file, run, -, rfl⟩ := readColumnLines_eq_ok_iff.mp read
  have start : ColumnFile.MadeOf (fun row : TokenRow =>
      row.IsFrom text ∧ TokenRow.leastFields ≤ row.fields.length) {} :=
    ⟨fun _ mem => absurd mem List.not_mem_nil,
      fun _ shut => absurd shut.symm (Option.some_ne_none _),
      fun _ mem => absurd mem List.not_mem_nil⟩
  have madeOf := start.readFrom
    (fun line listed fields _ kind enough => ⟨⟨line, listed, kind⟩, enough⟩) run
  obtain ⟨rows, gold, here, each⟩ := madeOf.finished built mem s inside
  have solid : ∀ row ∈ rows, Text.IsWord row.pos.toList ∧ Text.IsWord row.word.toList := by
    intro row listed
    obtain ⟨isFrom, enough⟩ := each row listed
    have many : 12 ≤ row.fields.length := enough
    exact ⟨isFrom.isWord_field (by omega), isFrom.isWord_field (by omega)⟩
  exact ⟨rows, gold, here, fun row listed => (each row listed).1, Sentence.aligned_iff here,
    fun aligned => aligned.isBracketFree here, Sentence.aligned_iff_of_pos here solid⟩

/-- The words and the leaves of each sentence of a text, by document. -/
def wordsAndLeaves (text : String) :
    Except ReadError (List (List (List String × Option (List String)))) :=
  (readColumnFile text).map fun docs => docs.map fun built =>
    built.1.sentences.map fun s => (s.tokens.map Token.word, s.parse?.map ParseTree.leaves)

theorem exists_of_wordsAndLeaves {text : String} {words : List String}
    {leaves? : Option (List String)} (found : wordsAndLeaves text = .ok [[(words, leaves?)]]) :
    ∃ built s, readColumnFile text = .ok [built] ∧ s ∈ built.1.sentences ∧
      s.tokens.map Token.word = words ∧ s.parse?.map ParseTree.leaves = leaves? := by
  obtain ⟨docs, read, shown⟩ := map_eq_ok_iff.mp found
  obtain ⟨built, rfl⟩ := List.length_eq_one_iff.mp (by simpa using congrArg List.length shown)
  have mem : (words, leaves?) ∈ built.1.sentences.map fun s =>
      (s.tokens.map Token.word, s.parse?.map ParseTree.leaves) := by
    have sentences := (List.cons.inj shown).1
    dsimp only at sentences
    rw [sentences]
    exact List.mem_cons_self
  obtain ⟨s, inside, same⟩ := List.mem_map.mp mem
  obtain ⟨sameWords, sameLeaves⟩ := Prod.mk.inj same
  exact ⟨built, s, read, inside, sameWords, sameLeaves⟩

/-- The brackets of two lines that bring nothing but labels. -/
theorem readColumnFile_aligned_nested :
    let text := "\n".intercalate ["#begin document d", "d 0 0 Joe NNP (TOP(S(NP*) - - - - * -",
      "d 0 1 left VBD (VP*))) - - - - * -", "#end document"]
    ∃ built s rows gold, readColumnFile text = .ok [built] ∧ s ∈ built.1.sentences ∧ s.Aligned ∧
      readRows rows = .ok (s, gold) ∧ rows.map TokenRow.word = ["Joe", "left"] ∧
      (∀ row ∈ rows, row.IsFrom text) ∧
      (s.Aligned ↔ leafWords (symbols (treeText rows)) = rows.map TokenRow.word) ∧
      (s.Aligned → ∀ row ∈ rows, IsBracketFree row.word) ∧
      ((∀ row ∈ rows, IsBracketFree row.pos) → (s.Aligned ↔
        (∀ row ∈ rows, IsBracketFree row.word) ∧
          leafWords (symbols (bracketText rows)) = [])) := by
  intro text
  have found : wordsAndLeaves text = .ok [[(["Joe", "left"], some ["Joe", "left"])]] := by
    decide +kernel
  obtain ⟨built, s, read, mem, words, leaves⟩ := exists_of_wordsAndLeaves found
  obtain ⟨tree, parsed, leaves⟩ := Option.map_eq_some_iff.mp leaves
  obtain ⟨rows, gold, here, rest⟩ := readColumnFile_aligned read built List.mem_cons_self s mem
  exact ⟨built, s, rows, gold, read, mem, ⟨tree, parsed, leaves.trans words.symm⟩, here,
    (map_word_of_readRows here).symm.trans words, rest⟩

/-- A word with brackets in it comes apart into two leaves. -/
theorem readColumnFile_bracketed_word :
    let text := "\n".intercalate ["#begin document d", "d 0 0 colo(u)r NN (TOP*) - - - - * -",
      "#end document"]
    ∃ built s, readColumnFile text = .ok [built] ∧ s ∈ built.1.sentences ∧
      s.tokens.map Token.word = ["colo(u)r"] ∧
      s.parse?.map ParseTree.leaves = some ["colo", "r"] ∧ ¬s.Aligned := by
  intro text
  have found : wordsAndLeaves text = .ok [[(["colo(u)r"], some ["colo", "r"])]] := by
    decide +kernel
  obtain ⟨built, s, read, mem, words, leaves⟩ := exists_of_wordsAndLeaves found
  refine ⟨built, s, read, mem, words, leaves, ?_⟩
  rintro ⟨tree, parsed, aligned⟩
  rw [parsed, Option.map_some, Option.some.injEq] at leaves
  rw [leaves, words] at aligned
  exact absurd aligned (by decide)

end Discourse
