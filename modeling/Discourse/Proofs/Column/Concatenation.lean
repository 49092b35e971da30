import Discourse.Proofs.Column.Documents
/-!
# Column files one after the other

Two column files put one after the other are read as the documents of the first followed by those of
the second.  A file that has been read to its end waits for nothing, neither for the end of a
document nor for the end of a sentence, so it goes on as a new file does; and what is read goes by
the fields of the lines and not by their numbers, which are others in the second file.

Between the two the text gains at most one line: a file that ends with a line feed is followed by a
blank line, and a carriage return at its end is a blank character in either place.
-/

namespace Discourse

/-! ## The lines of both -/

/-- The lines of two texts one after the other are the lines of both, with at most blank lines in
between. -/
theorem exists_map_ofString_lines_append (front back : String) :
    ∃ between : List String, (∀ line ∈ between, ColumnLine.ofString line = .blank) ∧
      (Text.lines (front ++ "\n" ++ back)).map ColumnLine.ofString =
        (Text.lines front ++ between ++ Text.lines back).map ColumnLine.ofString := by
  obtain ⟨lead, last, first, both⟩ := Text.exists_lines_append_newline front back
  have returned := ColumnLine.ofString_withoutReturn (String.ofList last)
  rw [String.toList_ofList] at returned
  cases last with
  | nil =>
    refine ⟨[""], List.forall_mem_singleton.mpr (by decide), ?_⟩
    rw [both, first, if_pos rfl, List.append_nil, List.append_assoc]
    rfl
  | cons c rest =>
    refine ⟨[], fun line mem => absurd mem List.not_mem_nil, ?_⟩
    rw [both, first, if_neg (List.cons_ne_nil c rest), List.append_nil, List.append_assoc,
      List.map_append, List.map_append, List.map_cons, returned]
    rfl

/-! ## A file between two documents -/

namespace ColumnFile

variable {f f' g : ColumnFile} {n : Nat}

theorem Alike.symm (alike : Alike f g) : Alike g f := ⟨alike.pending.symm, alike.rows.symm⟩

/-- What is read goes by what the lines are. -/
theorem readFrom_congr {lines lines' : List String}
    (same : lines.map ColumnLine.ofString = lines'.map ColumnLine.ofString) :
    f.readFrom n lines = f.readFrom n lines' :=
  congrArg (fun kinds : List ColumnLine => f.readLines (kinds.zipIdx n)) same

/-- Blank lines between two documents change nothing. -/
theorem readFrom_blanks (shut : f.pending? = none) {lines : List String}
    (blank : ∀ line ∈ lines, ColumnLine.ofString line = .blank) (n : Nat) :
    f.readFrom n lines = .ok f := by
  induction lines generalizing n with
  | nil => rfl
  | cons line lines ih =>
    obtain ⟨first, others⟩ := List.forall_mem_cons.mp blank
    refine readFrom_cons_eq_ok_iff.mpr ⟨f, ?_, ih others (n + 1)⟩
    rw [first]
    unfold readLine
    rw [shut]

/-- Lines that go through in one of two files that go on alike, up to the end of a document, add the
same documents to the other. -/
theorem Alike.exists_readFrom {lines : List String} (alike : Alike f g)
    (read : f.readFrom n lines = .ok f') (shut : f'.pending? = none) (m : Nat) :
    ∃ g' built, g.readFrom m lines = .ok g' ∧ g'.pending? = none ∧
      f'.finished = f.finished ++ built ∧ g'.finished = g.finished ++ built := by
  obtain ⟨g', built, run, alike', grown, grown', -⟩ := alike.readFrom rfl read m
  have closed : g'.pending?.isSome = false := by
    rw [← alike'.isSome, shut]
    rfl
  exact ⟨g', built, run, Option.isNone_iff_eq_none.mp (Option.isSome_eq_false_iff.mp closed), grown,
    grown'⟩

end ColumnFile

/-! ## Both files -/

/-- Behind a text that can be read a second one can be read exactly if it can be read alone, and the
documents of the two follow each other. -/
theorem readColumnFile_append_newline_iff {front back : String}
    {docs all : List (Document × RawMentions)} (read : readColumnFile front = .ok docs) :
    readColumnFile (front ++ "\n" ++ back) = .ok all ↔
      ∃ more, readColumnFile back = .ok more ∧ all = docs ++ more := by
  rw [readColumnFile_eq, readColumnLines_eq_ok_iff] at read ⊢
  simp only [readColumnFile_eq, readColumnLines_eq_ok_iff]
  obtain ⟨file, run, shut, rfl⟩ := read
  have rows : file.rows = [] := (ColumnFile.After.nil.readFrom run).closed shut
  have new : ColumnFile.Alike file {} := ⟨by rw [shut], by rw [rows]⟩
  obtain ⟨between, blank, kinds⟩ := exists_map_ofString_lines_append front back
  -- the file after the first text and what may stand between the two
  have leading : ColumnFile.readFrom {} 1 (Text.lines front ++ between) = .ok file :=
    ColumnFile.readFrom_append_eq_ok_iff.mpr ⟨file, run, ColumnFile.readFrom_blanks shut blank _⟩
  have split : ∀ last, ColumnFile.readFrom {} 1 (Text.lines (front ++ "\n" ++ back)) = .ok last ↔
      file.readFrom (1 + (Text.lines front ++ between).length) (Text.lines back) = .ok last := by
    intro last
    rw [ColumnFile.readFrom_congr kinds, ColumnFile.readFrom_append_eq_ok_iff, leading]
    constructor
    · rintro ⟨mid, same, rest⟩
      cases same
      exact rest
    · intro rest
      exact ⟨file, rfl, rest⟩
  simp only [split]
  constructor
  · rintro ⟨last, rest, ended, rfl⟩
    obtain ⟨alone, built, again, closed, grown, grown'⟩ := new.exists_readFrom rest ended 1
    exact ⟨built, ⟨alone, again, closed, grown'⟩, grown⟩
  · rintro ⟨more, ⟨alone, again, closed, rfl⟩, rfl⟩
    obtain ⟨last, built, rest, ended, grown, grown'⟩ := new.symm.exists_readFrom again closed
      (1 + (Text.lines front ++ between).length)
    refine ⟨last, rest, ended, ?_⟩
    rw [grown', grown]
    rfl

/-- The first text ends with a blank line of its own, and the second one has two documents; their
lines have other numbers behind the first. -/
theorem readColumnFile_append_newline_three :
    let front := "\n".intercalate ["#begin document a", "a 0 0 Hi UH (TOP*) - - - - * (1)", "",
      "#end document", ""]
    let back := "\n".intercalate ["#begin document b", "b 0 0 No UH (TOP*) - - - - * -",
      "#end document\r", "#begin document c", "#end document"]
    ∃ docs more, readColumnFile front = .ok docs ∧ readColumnFile back = .ok more ∧
      docs.map (fun built => built.1.id) = ["a"] ∧ more.map (fun built => built.1.id) = ["b", "c"] ∧
      readColumnFile (front ++ "\n" ++ back) = .ok (docs ++ more) := by
  intro front back
  have first : (readColumnFile front).map (fun docs => docs.map fun built => built.1.id) =
      .ok ["a"] := by
    decide +kernel
  have second : (readColumnFile back).map (fun docs => docs.map fun built => built.1.id) =
      .ok ["b", "c"] := by
    decide +kernel
  obtain ⟨docs, read, ids⟩ := map_eq_ok_iff.mp first
  obtain ⟨more, read', ids'⟩ := map_eq_ok_iff.mp second
  exact ⟨docs, more, read, read', ids, ids',
    (readColumnFile_append_newline_iff read).mpr ⟨more, read', rfl⟩⟩

end Discourse
