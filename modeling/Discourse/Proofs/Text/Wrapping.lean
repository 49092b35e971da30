import Mathlib.Data.List.Chain
import Discourse.Proofs.Text.Lines
import Discourse.Proofs.Text.Words
import Discourse.Report.Wrapped
/-!
# Wrapped lines are filled greedily

A wrapped text has the words of the text, with a single space or the end of a line between two of
them.  A line exceeds the width only if it is a single word that does, and the first word of the
next line would have made it exceed the width (`IsWrapped`).  There is one such text for every text
and width (`isWrapped_iff`).

Lines are filled as rows of words (`Filled`).  A row that is being filled takes the next word if and
only if that fits (`fillFrom_cons`), so that both directions are inductions over the words still to
come, with the row that is being filled in front of them.
-/

namespace Discourse.Text

/-! ## Rows of words -/

/-- Words on one line. -/
def lineOf (row : List String) : String := " ".intercalate row

theorem utf8ByteSize_lineOf_append {row more : List String} (some : row ≠ []) (others : more ≠ []) :
    (lineOf (row ++ more)).utf8ByteSize =
      (lineOf row).utf8ByteSize + 1 + (lineOf more).utf8ByteSize := by
  rw [lineOf, String.intercalate_append_of_ne_nil some others, String.utf8ByteSize_append,
    String.utf8ByteSize_append]
  rfl

/-- Words put in rows as they fill lines of a given width. -/
structure Filled (width : Nat) (words : List String) (rows : List (List String)) : Prop where
  kept : rows.flatten = words
  nonempty : ∀ row ∈ rows, row ≠ []
  fits : ∀ row ∈ rows, (lineOf row).utf8ByteSize ≤ width ∨ row.length = 1
  greedy : rows.IsChain fun row next =>
    ∀ w ∈ next.head?, width < (lineOf (row ++ [w])).utf8ByteSize

/-- The rows that are filled with words from a row on that holds some already. -/
def fillFrom (width : Nat) (row words : List String) : List (List String) :=
  fillLines width row.reverse (lineOf row).utf8ByteSize words

section Filling

variable {width : Nat} {row words : List String} {rows : List (List String)} {w : String}

/-! ### The row being filled -/

theorem fillLines_cons (width : Nat) (w : String) (words : List String) :
    fillLines width [] 0 (w :: words) = fillFrom width [w] words := by
  rw [fillFrom, lineOf, String.intercalate_singleton]
  rfl

theorem fillFrom_nil (some : row ≠ []) : fillFrom width row [] = [row] := by
  rw [fillFrom, fillLines, List.isEmpty_reverse, List.isEmpty_eq_false_iff.mpr some,
    if_neg Bool.false_ne_true, List.reverse_reverse]

/-- The next word goes onto the row if it fits there, and starts the next row if it does not. -/
theorem fillFrom_cons (some : row ≠ []) (w : String) (words : List String) :
    fillFrom width row (w :: words) =
      if width < (lineOf (row ++ [w])).utf8ByteSize then row :: fillFrom width [w] words
      else fillFrom width (row ++ [w]) words := by
  have single : lineOf [w] = w := String.intercalate_singleton
  have size : (lineOf (row ++ [w])).utf8ByteSize =
      (lineOf row).utf8ByteSize + 1 + w.utf8ByteSize := by
    rw [utf8ByteSize_lineOf_append some (List.cons_ne_nil w []), single]
  rw [fillFrom, fillLines, List.isEmpty_reverse, List.isEmpty_eq_false_iff.mpr some,
    if_neg Bool.false_ne_true, List.reverse_reverse, fillFrom, fillFrom, single, size,
    Nat.add_right_comm, List.reverse_append]
  rfl

/-! ### Filled rows -/

/-- A row in front of rows the first word of which would not have fitted on it. -/
theorem Filled.cons (filled : Filled width (w :: words) rows) (some : row ≠ [])
    (fits : (lineOf row).utf8ByteSize ≤ width ∨ row.length = 1)
    (exceeds : width < (lineOf (row ++ [w])).utf8ByteSize) :
    Filled width (row ++ w :: words) (row :: rows) where
  kept := by rw [List.flatten_cons, filled.kept]
  nonempty := List.forall_mem_cons.mpr ⟨some, filled.nonempty⟩
  fits := List.forall_mem_cons.mpr ⟨fits, filled.fits⟩
  greedy := by
    refine filled.greedy.cons ?_
    intro next first w' head
    obtain ⟨rest, rfl⟩ := List.head?_eq_some_iff.mp first
    obtain ⟨tail, rfl⟩ := List.head?_eq_some_iff.mp head
    obtain rfl : w' = w := (List.cons.inj filled.kept).1
    exact exceeds

theorem Filled.tail (filled : Filled width words (row :: rows)) :
    Filled width rows.flatten rows where
  kept := rfl
  nonempty := (List.forall_mem_cons.mp filled.nonempty).2
  fits := (List.forall_mem_cons.mp filled.fits).2
  greedy := filled.greedy.tail

theorem Filled.rest_eq {more : List String}
    (filled : Filled width (row ++ words) ((row ++ more) :: rows)) :
    more ++ rows.flatten = words := by
  have kept := filled.kept
  rw [List.flatten_cons, List.append_assoc] at kept
  exact List.append_cancel_left kept

/-- Filling goes on to filled rows. -/
theorem filled_fillFrom (some : row ≠ [])
    (fits : (lineOf row).utf8ByteSize ≤ width ∨ row.length = 1) (words : List String) :
    Filled width (row ++ words) (fillFrom width row words) := by
  induction words generalizing row with
  | nil =>
    rw [fillFrom_nil some, List.append_nil]
    exact
      { kept := List.flatten_singleton
        nonempty := List.forall_mem_singleton.mpr some
        fits := List.forall_mem_singleton.mpr fits
        greedy := List.isChain_singleton row }
  | cons w rest ih =>
    rw [fillFrom_cons some]
    split
    next exceeds =>
      have next : Filled width (w :: rest) (fillFrom width [w] rest) :=
        ih (List.cons_ne_nil w []) (.inr rfl)
      exact next.cons some fits exceeds
    next room =>
      rw [List.append_cons]
      exact ih (List.append_ne_nil_of_left_ne_nil some [w]) (.inl (Nat.le_of_not_lt room))

theorem size_le_of_append {more : List String} (some : row ≠ []) :
    (lineOf row).utf8ByteSize ≤ (lineOf (row ++ more)).utf8ByteSize := by
  cases more with
  | nil => rw [List.append_nil]
  | cons w more =>
    rw [utf8ByteSize_lineOf_append some (List.cons_ne_nil w more)]
    omega

/-- Filled rows are those to which filling goes on from any beginning of the first one. -/
theorem Filled.eq_fillFrom {more : List String}
    (filled : Filled width (row ++ words) ((row ++ more) :: rows)) (some : row ≠ []) :
    (row ++ more) :: rows = fillFrom width row words := by
  induction words generalizing row more rows with
  | nil =>
    obtain ⟨rfl, nothing⟩ := List.append_eq_nil_iff.mp filled.rest_eq
    cases rows with
    | nil => rw [fillFrom_nil some, List.append_nil]
    | cons next rest =>
      have empty := List.flatten_eq_nil_iff.mp nothing next List.mem_cons_self
      exact absurd empty (filled.tail.nonempty next List.mem_cons_self)
  | cons w words ih =>
    cases more with
    | nil =>
      -- the row ends in front of `w`, which did not fit
      cases rows with
      | nil => cases filled.rest_eq
      | cons next rest =>
        obtain ⟨w', tail, rfl⟩ :=
          List.exists_cons_of_ne_nil (filled.tail.nonempty next List.mem_cons_self)
        obtain ⟨rfl, -⟩ := List.cons.inj filled.rest_eq
        have exceeds := (List.isChain_cons_cons.mp filled.greedy).1 w' rfl
        have kept : ((w' :: tail) :: rest).flatten = w' :: words := filled.rest_eq
        have behind : Filled width ([w'] ++ words) (([w'] ++ tail) :: rest) := by
          show Filled width (w' :: words) ((w' :: tail) :: rest)
          rw [← kept]
          exact filled.tail
        have next : (w' :: tail) :: rest = fillFrom width [w'] words :=
          ih behind (List.cons_ne_nil w' [])
        rw [List.append_nil] at exceeds ⊢
        rw [fillFrom_cons some, if_pos exceeds, next]
    | cons w' more =>
      -- the row goes on with `w`, which fits since the whole row does
      obtain ⟨rfl, -⟩ := List.cons.inj filled.rest_eq
      have longer : row ++ [w'] ≠ [] := List.append_ne_nil_of_left_ne_nil some [w']
      rw [List.append_cons row w' more, List.append_cons row w' words] at filled
      have fits : (lineOf (row ++ [w'])).utf8ByteSize ≤ width := by
        rcases filled.fits _ List.mem_cons_self with fits | single
        · exact Nat.le_trans (size_le_of_append longer) fits
        · have := List.length_pos_iff.mpr some
          simp only [List.length_append, List.length_singleton] at single
          omega
      rw [List.append_cons row w' more, fillFrom_cons some, if_neg (Nat.not_lt.mpr fits)]
      exact ih filled longer

/-- The rows of a text are filled, and there are no others. -/
theorem filled_iff : Filled width words rows ↔ rows = fillLines width [] 0 words := by
  cases words with
  | nil =>
    constructor
    · intro filled
      have nothing := List.flatten_eq_nil_iff.mp filled.kept
      exact List.eq_nil_iff_forall_not_mem.mpr fun row mem =>
        filled.nonempty row mem (nothing row mem)
    · rintro rfl
      exact ⟨rfl, by simp [fillLines], by simp [fillLines], List.isChain_nil⟩
  | cons w words =>
    rw [fillLines_cons]
    constructor
    · intro filled
      cases rows with
      | nil => cases filled.kept
      | cons row rest =>
        obtain ⟨w', more, rfl⟩ :=
          List.exists_cons_of_ne_nil (filled.nonempty row List.mem_cons_self)
        obtain rfl : w' = w := (List.cons.inj filled.kept).1
        have filling : Filled width ([w'] ++ words) (([w'] ++ more) :: rest) := filled
        exact filling.eq_fillFrom (List.cons_ne_nil w' [])
    · rintro rfl
      exact filled_fillFrom (List.cons_ne_nil w []) (.inr rfl) words

end Filling

/-! ## The wrapped text -/

section Rows

variable {row : List String} {rows : List (List String)}

theorem toList_lineOf (row : List String) :
    (lineOf row).toList = [' '].intercalate (row.map String.toList) := by
  rw [lineOf, String.toList_intercalate]
  rfl

theorem words_lineOf (solid : ∀ w ∈ row, IsWord w.toList) : words (lineOf row) = row := by
  rw [words, toList_lineOf, wordChars_intercalate (List.forall_mem_map.mpr solid), List.map_map]
  exact (List.map_congr_left fun _ _ => String.ofList_toList).trans (List.map_id row)

/-- There is no blank on a line of words but the space. -/
theorem eq_space_of_mem_lineOf {c : Char} (solid : ∀ w ∈ row, IsWord w.toList)
    (mem : c ∈ (lineOf row).toList) (blank : isBlank c = true) : c = ' ' := by
  induction row with
  | nil => cases mem
  | cons w rest ih =>
    obtain ⟨first, others⟩ := List.forall_mem_cons.mp solid
    have in_word : c ∉ w.toList := by
      intro inside
      rw [first.solid c inside] at blank
      cases blank
    cases rest with
    | nil =>
      rw [lineOf, String.intercalate_singleton] at mem
      exact absurd mem in_word
    | cons next rest =>
      rw [lineOf, String.intercalate_cons_cons, String.toList_append, String.toList_append] at mem
      rcases List.mem_append.mp mem with front | back
      · rcases List.mem_append.mp front with inside | space
        · exact absurd inside in_word
        · exact List.mem_singleton.mp space
      · exact ih others back

theorem lineOf_ne_empty (some : row ≠ []) (solid : ∀ w ∈ row, IsWord w.toList) :
    lineOf row ≠ "" := by
  intro empty
  have nothing : words (lineOf row) = [] := by
    rw [empty]
    rfl
  rw [words_lineOf solid] at nothing
  exact some nothing

/-- Lines of words are found again in the text that they make. -/
theorem lines_rows (nonempty : ∀ row ∈ rows, row ≠ [])
    (solid : ∀ row ∈ rows, ∀ w ∈ row, IsWord w.toList) :
    lines ("\n".intercalate (rows.map lineOf)) = rows.map lineOf := by
  rcases List.eq_nil_or_concat rows with rfl | ⟨front, last, split⟩
  · rfl
  have unbroken {c : Char} (blank : isBlank c = true) (other : c ≠ ' ') :
      ∀ line ∈ rows.map lineOf, c ∉ line.toList := by
    intro line mem inside
    obtain ⟨row, listed, rfl⟩ := List.mem_map.mp mem
    exact other (eq_space_of_mem_lineOf (solid row listed) inside blank)
  have feeds := @unbroken '\n' (by decide) (by decide)
  have returns := @unbroken '\r' (by decide) (by decide)
  have listed : last ∈ rows := by
    rw [split, List.concat_eq_append]
    exact List.mem_append_right front List.mem_cons_self
  have parted : rows.map lineOf = front.map lineOf ++ [lineOf last] := by
    rw [split, List.concat_eq_append, List.map_append, List.map_singleton]
  rw [parted] at feeds returns ⊢
  rw [lines_intercalate feeds (lineOf_ne_empty (nonempty last listed) (solid last listed))]
  refine congrArg (· ++ [lineOf last])
    ((List.map_congr_left fun line mem => ?_).trans (List.map_id _))
  rw [withoutReturn_of_not_mem (returns line (List.mem_append_left _ mem)), String.ofList_toList]
  rfl

end Rows

/-- A text with the words of another one, put on lines of a given width in bytes. -/
structure IsWrapped (width : Nat) (text wrapped : String) : Prop where
  /-- The words are kept, in their order. -/
  kept : words wrapped = words text
  /-- Lines end between lines only. -/
  ends : wrapped = "\n".intercalate (lines wrapped)
  /-- A line has words, and nothing but a single space between two of them. -/
  spaced : ∀ line ∈ lines wrapped, line ≠ "" ∧ line = squeeze line
  /-- Only a word that is too long by itself exceeds the width. -/
  fits : ∀ line ∈ lines wrapped,
    line.utf8ByteSize ≤ width ∨ words line = [line] ∧ width < line.utf8ByteSize
  /-- The first word of a line would not have fitted on the line before. -/
  greedy : (lines wrapped).IsChain fun line next =>
    ∀ w ∈ (words next).head?, width < (line ++ " " ++ w).utf8ByteSize

section Wrapping

variable {width : Nat} {text wrapped : String} {rows : List (List String)}

theorem wrap_eq (width : Nat) (text : String) :
    wrap width text = "\n".intercalate ((fillLines width [] 0 (words text)).map lineOf) := rfl

theorem lineOf_concat {row : List String} (some : row ≠ []) (w : String) :
    lineOf (row ++ [w]) = lineOf row ++ " " ++ w := by
  rw [lineOf, String.intercalate_append_of_ne_nil some (List.cons_ne_nil w []),
    String.intercalate_singleton, lineOf]

/-- The text of filled rows is wrapped. -/
theorem Filled.isWrapped (filled : Filled width (words text) rows) :
    IsWrapped width text ("\n".intercalate (rows.map lineOf)) := by
  have solid : ∀ row ∈ rows, ∀ w ∈ row, IsWord w.toList := by
    intro row listed w mem
    have found : w ∈ rows.flatten := List.mem_flatten_of_mem listed mem
    rw [filled.kept] at found
    exact isWord_of_mem_words found
  have found := lines_rows filled.nonempty solid
  have read : ∀ row ∈ rows, words (lineOf row) = row :=
    fun row listed => words_lineOf (solid row listed)
  refine
    { kept := ?_
      ends := by rw [found]
      spaced := ?_
      fits := ?_
      greedy := ?_ }
  · calc words ("\n".intercalate (rows.map lineOf))
        = (rows.map lineOf).flatMap words := words_intercalate (c := '\n') (by decide) _
      _ = rows.flatMap id := by
          rw [List.flatMap_map]
          exact List.flatMap_congr read
      _ = words text := by
          rw [List.flatMap_id]
          exact filled.kept
  · rw [found]
    intro line mem
    obtain ⟨row, listed, rfl⟩ := List.mem_map.mp mem
    refine ⟨lineOf_ne_empty (filled.nonempty row listed) (solid row listed), ?_⟩
    rw [squeeze, read row listed, lineOf]
  · rw [found]
    intro line mem
    obtain ⟨row, listed, rfl⟩ := List.mem_map.mp mem
    rcases filled.fits row listed with fits | single
    · exact .inl fits
    · obtain ⟨w, rfl⟩ := List.length_eq_one_iff.mp single
      have alone : words (lineOf [w]) = [lineOf [w]] := by
        rw [read [w] listed, lineOf, String.intercalate_singleton]
      rcases Nat.lt_or_ge width (lineOf [w]).utf8ByteSize with exceeds | fits
      · exact .inr ⟨alone, exceeds⟩
      · exact .inl fits
  · rw [found, List.isChain_map]
    refine filled.greedy.imp_of_mem_imp ?_
    intro row next listed listed' greedy w head
    rw [read next listed'] at head
    rw [← lineOf_concat (filled.nonempty row listed)]
    exact greedy w head

/-- The rows of a wrapped text are filled. -/
theorem IsWrapped.filled (isWrapped : IsWrapped width text wrapped) :
    Filled width (words text) ((lines wrapped).map words) := by
  have some : ∀ line ∈ lines wrapped, words line ≠ [] := by
    intro line mem nothing
    obtain ⟨nonempty, same⟩ := isWrapped.spaced line mem
    rw [squeeze, nothing] at same
    exact nonempty same
  have same : ∀ line ∈ lines wrapped, lineOf (words line) = line :=
    fun line mem => (isWrapped.spaced line mem).2.symm
  refine
    { kept := ?_
      nonempty := List.forall_mem_map.mpr some
      fits := ?_
      greedy := ?_ }
  · rw [← List.flatMap_def, ← words_intercalate (c := '\n') (by decide)]
    exact (congrArg words isWrapped.ends).symm.trans isWrapped.kept
  · refine List.forall_mem_map.mpr fun line mem => ?_
    rw [same line mem]
    refine (isWrapped.fits line mem).imp_right fun single => ?_
    rw [single.1]
    rfl
  · rw [List.isChain_map]
    refine isWrapped.greedy.imp_of_mem_imp ?_
    intro line next mem _ greedy w head
    rw [lineOf_concat (some line mem), same line mem]
    exact greedy w head

/-- For every width and every text the wrapped text is what is asked for, and no other text is. -/
theorem isWrapped_iff (width : Nat) (text wrapped : String) :
    IsWrapped width text wrapped ↔ wrapped = wrap width text := by
  constructor
  · intro isWrapped
    have rows := filled_iff.mp isWrapped.filled
    have written : ((lines wrapped).map words).map lineOf = lines wrapped := by
      rw [List.map_map]
      refine (List.map_congr_left fun line mem => ?_).trans (List.map_id _)
      exact (isWrapped.spaced line mem).2.symm
    calc wrapped
        = "\n".intercalate (((lines wrapped).map words).map lineOf) := by
          rw [written]
          exact isWrapped.ends
      _ = wrap width text := by
          rw [rows, wrap_eq]
  · rintro rfl
    exact (filled_iff.mpr rfl).isWrapped

/-- A line may be full to the last byte, and a long word has a line for itself. -/
example : wrap 5 " ab  cd e longest f" = "ab cd\ne\nlongest\nf" := by decide +kernel

end Wrapping

end Discourse.Text
