import Mathlib.Data.List.Basic
import Discourse.Text.Blank
/-!
# Lines put together

Lines that are put together with line feeds are found again, up to carriage returns at their ends,
unless the last one is empty (`lines_intercalate`).  A carriage return is blank, and so none is
missed where a line is trimmed.
-/

namespace Discourse.Text

/-! ## Pieces between marks -/

section Pieces

variable {mark : Char} {cs piece : List Char}

theorem not_mem_of_mem_splitAtMarks (mem : piece ∈ splitAtMarks mark cs) : mark ∉ piece := by
  induction cs generalizing piece with
  | nil =>
    cases List.mem_singleton.mp mem
    exact List.not_mem_nil
  | cons c rest ih =>
    rw [splitAtMarks, List.foldr_cons, ← splitAtMarks] at mem
    cases pieces : splitAtMarks mark rest with
    | nil =>
      rw [pieces, consPiece] at mem
      split at mem
      next => simp_all
      next other =>
        cases List.mem_singleton.mp mem
        exact fun here => other (List.mem_singleton.mp here).symm
    | cons first others =>
      rw [pieces] at ih
      rw [pieces, consPiece] at mem
      split at mem
      next =>
        rcases List.mem_cons.mp mem with rfl | mem
        · exact List.not_mem_nil
        · exact ih mem
      next other =>
        rcases List.mem_cons.mp mem with rfl | mem
        · rintro (_ | ⟨_, here⟩)
          · exact other rfl
          · exact ih List.mem_cons_self here
        · exact ih (List.mem_cons_of_mem first mem)

theorem splitAtMarks_of_not_mem (plain : mark ∉ cs) : splitAtMarks mark cs = [cs] := by
  induction cs with
  | nil => rfl
  | cons c rest ih =>
    obtain ⟨other, plain⟩ := not_or.mp (mt List.mem_cons.mpr plain)
    rw [splitAtMarks, List.foldr_cons, ← splitAtMarks, ih plain, consPiece, if_neg (Ne.symm other)]

theorem splitAtMarks_ne_nil (mark : Char) (cs : List Char) : splitAtMarks mark cs ≠ [] := by
  cases cs with
  | nil => exact List.cons_ne_nil [] []
  | cons c rest =>
    show consPiece mark c (splitAtMarks mark rest) ≠ []
    cases splitAtMarks mark rest with
    | nil =>
      rw [consPiece]
      split <;> exact List.cons_ne_nil _ _
    | cons piece others =>
      rw [consPiece]
      split <;> exact List.cons_ne_nil _ _

/-- A mark cuts the pieces before it from the pieces behind it. -/
theorem splitAtMarks_append_mark (mark : Char) (cs rest : List Char) :
    splitAtMarks mark (cs ++ mark :: rest) = splitAtMarks mark cs ++ splitAtMarks mark rest := by
  induction cs with
  | nil =>
    show consPiece mark mark (splitAtMarks mark rest) = [] :: splitAtMarks mark rest
    obtain ⟨piece, others, pieces⟩ := List.exists_cons_of_ne_nil (splitAtMarks_ne_nil mark rest)
    rw [pieces, consPiece, if_pos rfl]
  | cons c front ih =>
    show consPiece mark c (splitAtMarks mark (front ++ mark :: rest)) =
      consPiece mark c (splitAtMarks mark front) ++ splitAtMarks mark rest
    obtain ⟨piece, others, pieces⟩ := List.exists_cons_of_ne_nil (splitAtMarks_ne_nil mark front)
    rw [ih, pieces, List.cons_append, consPiece, consPiece]
    split <;> rfl

theorem splitAtMarks_intercalate {pieces : List (List Char)} (plain : ∀ p ∈ pieces, mark ∉ p)
    (nonempty : pieces ≠ []) : splitAtMarks mark ([mark].intercalate pieces) = pieces := by
  induction pieces with
  | nil => exact absurd rfl nonempty
  | cons p rest ih =>
    obtain ⟨first, others⟩ := List.forall_mem_cons.mp plain
    cases rest with
    | nil => exact (congrArg _ (by simp [List.intercalate])).trans (splitAtMarks_of_not_mem first)
    | cons q rest =>
      have spaced : [mark].intercalate (p :: q :: rest) =
          p ++ mark :: [mark].intercalate (q :: rest) := by
        simp [List.intercalate]
      rw [spaced, splitAtMarks_append_mark, splitAtMarks_of_not_mem first,
        ih others (List.cons_ne_nil q rest)]
      rfl

end Pieces

/-! ## Carriage returns -/

theorem withoutReturn_cases (line : List Char) :
    withoutReturn line = line ∨ line = withoutReturn line ++ ['\r'] := by
  unfold withoutReturn
  split
  next rest reversed =>
    have split : line = (line.reverse).reverse := (List.reverse_reverse line).symm
    rw [reversed, List.reverse_cons] at split
    exact .inr split
  next => exact .inl rfl

theorem withoutReturn_of_not_mem {line : List Char} (plain : '\r' ∉ line) :
    withoutReturn line = line := by
  rcases withoutReturn_cases line with same | ends
  · exact same
  · rw [ends] at plain
    exact absurd (List.mem_append_right _ List.mem_cons_self) plain

theorem mem_of_mem_withoutReturn {line : List Char} {c : Char} (mem : c ∈ withoutReturn line) :
    c ∈ line := by
  rcases withoutReturn_cases line with same | split
  · exact same ▸ mem
  · rw [split]
    exact List.mem_append_left _ mem

/-- A blank character at the end of a row is trimmed. -/
theorem dropEndWhile_append_blank {c : Char} (blank : isBlank c = true) (cs : List Char) :
    dropEndWhile isBlank ((cs ++ [c]).dropWhile isBlank) =
      dropEndWhile isBlank (cs.dropWhile isBlank) := by
  rw [List.dropWhile_append]
  split
  next empty =>
    rw [List.isEmpty_iff.mp empty, List.dropWhile_cons_of_pos blank]
    rfl
  next => rw [dropEndWhile, List.reverse_append, List.reverse_singleton, List.singleton_append,
      List.dropWhile_cons_of_pos blank, dropEndWhile]

theorem trim_withoutReturn (line : List Char) :
    trim (String.ofList (withoutReturn line)) = trim (String.ofList line) := by
  rcases withoutReturn_cases line with same | split
  · rw [same]
  · rw [trim, trim, String.toList_ofList, String.toList_ofList]
    conv => enter [2, 1]; rw [split]
    rw [dropEndWhile_append_blank (by decide)]

/-! ## Lines -/

/-- In front of further pieces every piece is a line, whether it is empty or not. -/
theorem pieceLines_append (pieces : List (List Char)) {more : List (List Char)}
    (nonempty : more ≠ []) :
    pieceLines (pieces ++ more) = pieces.map withoutReturn ++ pieceLines more := by
  induction pieces with
  | nil => rfl
  | cons piece rest ih =>
    obtain ⟨next, others, behind⟩ := List.exists_cons_of_ne_nil
      (List.append_ne_nil_of_right_ne_nil rest nonempty)
    rw [List.cons_append, List.map_cons, List.cons_append, ← ih, behind, pieceLines]
    exact List.cons_ne_nil next others

theorem pieceLines_append_singleton (pieces : List (List Char)) {last : List Char}
    (nonempty : last ≠ []) :
    pieceLines (pieces ++ [last]) = pieces.map withoutReturn ++ [last] := by
  have alone : pieceLines [last] = [last] := if_neg (mt List.isEmpty_iff.mp nonempty)
  rw [pieceLines_append pieces (List.cons_ne_nil last []), alone]

/-- The lines of lines put together, of which the last is not empty. -/
theorem lines_intercalate {front : List String} {last : String}
    (plain : ∀ line ∈ front ++ [last], '\n' ∉ line.toList) (nonempty : last ≠ "") :
    lines ("\n".intercalate (front ++ [last])) =
      front.map (fun line => String.ofList (withoutReturn line.toList)) ++ [last] := by
  have together : ("\n".intercalate (front ++ [last])).toList =
      ['\n'].intercalate (front.map String.toList ++ [last.toList]) := by
    rw [String.toList_intercalate, List.map_append]
    rfl
  have pieces : ∀ p ∈ front.map String.toList ++ [last.toList], '\n' ∉ p := by
    intro p mem
    have listed : p ∈ (front ++ [last]).map String.toList := by
      rw [List.map_append]
      exact mem
    obtain ⟨line, here, rfl⟩ := List.mem_map.mp listed
    exact plain line here
  have some : last.toList ≠ [] := mt String.toList_eq_nil_iff.mp nonempty
  rw [lines, together, splitAtMarks_intercalate pieces (by simp),
    pieceLines_append_singleton _ some, List.map_append, List.map_map, List.map_map,
    List.map_singleton, String.ofList_toList]
  rfl

/-- The lines of two texts one after the other.  The last piece of the first text is a line now
even if it is empty, and loses a carriage return. -/
theorem exists_lines_append_newline (front back : String) : ∃ lead last,
    lines front = lead ++ (if last = [] then [] else [String.ofList last]) ∧
      lines (front ++ "\n" ++ back) =
        lead ++ String.ofList (withoutReturn last) :: lines back := by
  obtain ⟨init, last, pieces⟩ : ∃ init last, splitAtMarks '\n' front.toList = init ++ [last] := by
    rcases List.eq_nil_or_concat (splitAtMarks '\n' front.toList) with none | ⟨init, last, split⟩
    · exact absurd none (splitAtMarks_ne_nil '\n' front.toList)
    · exact ⟨init, last, split.trans List.concat_eq_append⟩
  have alone : pieceLines [last] = if last = [] then [] else [last] := by
    rw [pieceLines]
    exact if_congr List.isEmpty_iff rfl rfl
  have together : (front ++ "\n" ++ back).toList = front.toList ++ '\n' :: back.toList := by
    rw [String.toList_append, String.toList_append, List.append_assoc]
    rfl
  refine ⟨(init.map withoutReturn).map String.ofList, last, ?_, ?_⟩
  · rw [lines, pieces, pieceLines_append init (List.cons_ne_nil last []), alone, List.map_append]
    split <;> rfl
  · rw [lines, together, splitAtMarks_append_mark, pieces,
      pieceLines_append _ (splitAtMarks_ne_nil '\n' back.toList), List.map_append, List.map_append,
      List.map_append, List.append_assoc]
    rfl

theorem mem_of_mem_pieceLines {pieces : List (List Char)} {line : List Char}
    (mem : line ∈ pieceLines pieces) :
    ∃ piece ∈ pieces, ∀ c ∈ line, c ∈ piece := by
  induction pieces with
  | nil => cases mem
  | cons piece rest ih =>
    cases rest with
    | nil =>
      rw [pieceLines] at mem
      split at mem
      next => cases mem
      next => exact ⟨line, mem, fun _ => id⟩
    | cons next others =>
      rw [pieceLines] at mem
      · rcases List.mem_cons.mp mem with rfl | mem
        · exact ⟨piece, List.mem_cons_self, fun _ => mem_of_mem_withoutReturn⟩
        · obtain ⟨piece', listed, inside⟩ := ih mem
          exact ⟨piece', List.mem_cons_of_mem piece listed, inside⟩
      · exact List.cons_ne_nil next others

/-- No line has a line feed in it. -/
theorem not_mem_of_mem_lines {text line : String} (mem : line ∈ lines text) :
    '\n' ∉ line.toList := by
  obtain ⟨cs, listed, rfl⟩ := List.mem_map.mp mem
  obtain ⟨piece, here, inside⟩ := mem_of_mem_pieceLines listed
  rw [String.toList_ofList]
  exact fun found => not_mem_of_mem_splitAtMarks here (inside _ found)

end Discourse.Text
