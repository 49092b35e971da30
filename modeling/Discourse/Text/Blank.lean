/-!
# Blank space and words

A text is a row of words with blank space around them.  Blank is every character with the
white-space property, not only the ASCII ones.  `words` is the row, `squeeze` writes it with
single spaces, `lines` cuts a text at its line ends, and the remaining functions cut a text at
one character.
-/

namespace Discourse.Text

/-- A white-space character. -/
def isBlank (c : Char) : Bool :=
  let n := c.toNat
  (9 ≤ n && n ≤ 13) || n == 0x20 || n == 0x85 || n == 0xA0 || n == 0x1680
    || (0x2000 ≤ n && n ≤ 0x200A) || n == 0x2028 || n == 0x2029 || n == 0x202F || n == 0x205F
    || n == 0x3000

/-- One character put in front of a row of words; the flag tells whether the first word of the
row starts at the very next character. -/
def consWord (c : Char) : List (List Char) × Bool → List (List Char) × Bool
  | (row, joined) =>
    if isBlank c then (row, false)
    else match row, joined with
      | word :: rest, true => ((c :: word) :: rest, true)
      | _, _ => ([c] :: row, true)

/-- The maximal runs of characters that are not blank, in order. -/
def wordChars (cs : List Char) : List (List Char) :=
  (cs.foldr consWord ([], false)).1

/-- The words of a text, in order. -/
def words (s : String) : List String :=
  (wordChars s.toList).map String.ofList

/-- The words of a text joined by single spaces. -/
def squeeze (s : String) : String :=
  " ".intercalate (words s)

/-- The text without its blank characters. -/
def withoutBlanks (s : String) : String :=
  String.ofList (s.toList.filter fun c => !isBlank c)

/-- A row of characters without the trailing ones that satisfy `p`. -/
def dropEndWhile (p : Char → Bool) (cs : List Char) : List Char :=
  (cs.reverse.dropWhile p).reverse

/-- The text without blank characters at its two ends. -/
def trim (s : String) : String :=
  String.ofList (dropEndWhile isBlank (s.toList.dropWhile isBlank))

/-- One character put in front of the pieces between occurrences of `mark`. -/
def consPiece (mark c : Char) : List (List Char) → List (List Char)
  | [] => if c = mark then [[], []] else [[c]]
  | piece :: rest => if c = mark then [] :: piece :: rest else (c :: piece) :: rest

/-- The pieces of a text between the occurrences of `mark`; one more than there are marks. -/
def splitAtMarks (mark : Char) (cs : List Char) : List (List Char) :=
  cs.foldr (consPiece mark) [[]]

/-- The pieces of a text between the occurrences of `mark`. -/
def splitOn (mark : Char) (s : String) : List String :=
  (splitAtMarks mark s.toList).map String.ofList

/-- A line without the carriage return that ended it. -/
def withoutReturn (line : List Char) : List Char :=
  match line.reverse with
  | '\r' :: rest => rest.reverse
  | _ => line

/-- The lines among the pieces between line feeds: a last empty piece is no line, and a carriage
return counts as part of the line end only in front of a line feed. -/
def pieceLines : List (List Char) → List (List Char)
  | [] => []
  | [last] => if last.isEmpty then [] else [last]
  | piece :: rest => withoutReturn piece :: pieceLines rest

/-- The lines of a text, without their ends. -/
def lines (s : String) : List String :=
  (pieceLines (splitAtMarks '\n' s.toList)).map String.ofList

/-- The parts before and after the first character that satisfies `p`. -/
def cutFirst? (p : Char → Bool) : List Char → Option (List Char × List Char)
  | [] => none
  | c :: rest =>
    if p c then some ([], rest)
    else (cutFirst? p rest).map fun (before, after) => (c :: before, after)

theorem cutFirst?_eq_some_iff {p : Char → Bool} {cs before after : List Char} :
    cutFirst? p cs = some (before, after) ↔
      ∃ c, cs = before ++ c :: after ∧ p c = true ∧ ∀ d ∈ before, p d = false := by
  induction cs generalizing before after with
  | nil => simp [cutFirst?]
  | cons c rest ih =>
    rw [cutFirst?]
    cases before with
    | nil => cases marked : p c <;> simp [marked, and_assoc]
    | cons d before =>
      cases marked : p c with
      | true =>
        refine iff_of_false (by simp) ?_
        rintro ⟨e, split, -, plain⟩
        obtain rfl : c = d := (List.cons.inj split).1
        exact Bool.noConfusion (marked.symm.trans (plain c List.mem_cons_self))
      | false =>
        simp only [Bool.false_eq_true, if_false, Option.map_eq_some_iff, Prod.exists, ih,
          Prod.mk.injEq, List.cons.injEq, List.cons_append, List.forall_mem_cons]
        constructor
        · rintro ⟨_, _, ⟨e, rfl, holds, plain⟩, ⟨rfl, rfl⟩, rfl⟩
          exact ⟨e, ⟨rfl, rfl⟩, holds, marked, plain⟩
        · rintro ⟨e, ⟨rfl, rfl⟩, holds, -, plain⟩
          exact ⟨before, after, ⟨e, rfl, holds, plain⟩, ⟨rfl, rfl⟩, rfl⟩

/-- The parts before and after the first occurrence of `mark`. -/
def cutAt? (mark : Char) (s : String) : Option (String × String) :=
  (cutFirst? (· == mark) s.toList).map fun (a, b) => (String.ofList a, String.ofList b)

/-- A text is cut at the mark with no mark in front of it. -/
theorem cutAt?_eq_some_iff {mark : Char} {s before after : String} :
    cutAt? mark s = some (before, after) ↔
      s = before ++ String.singleton mark ++ after ∧ mark ∉ before.toList := by
  have text : ∀ cs ds : List Char,
      s = String.ofList cs ++ String.singleton mark ++ String.ofList ds ↔
        s.toList = cs ++ mark :: ds := by
    intro cs ds
    rw [← String.toList_inj]
    simp
  simp only [cutAt?, Option.map_eq_some_iff, Prod.exists, cutFirst?_eq_some_iff, Prod.mk.injEq]
  constructor
  · rintro ⟨cs, ds, ⟨c, split, marked, plain⟩, rfl, rfl⟩
    obtain rfl : c = mark := by simpa using marked
    refine ⟨(text cs ds).mpr split, fun mem => ?_⟩
    rw [String.toList_ofList] at mem
    exact absurd (plain c mem) (by simp)
  · rintro ⟨split, plain⟩
    refine ⟨before.toList, after.toList, ⟨mark, ?_, by simp, fun d mem => ?_⟩, String.ofList_toList,
      String.ofList_toList⟩
    · rw [← text, String.ofList_toList, String.ofList_toList]
      exact split
    · refine beq_eq_false_iff_ne.mpr ?_
      rintro rfl
      exact plain mem

/-- The parts before and after the last blank character. -/
def cutAtLastBlank? (s : String) : Option (String × String) :=
  (cutFirst? isBlank s.toList.reverse).map fun (after, before) =>
    (String.ofList before.reverse, String.ofList after.reverse)

/-- The rest of a row of characters after a given beginning. -/
def after? : List Char → List Char → Option (List Char)
  | [], cs => some cs
  | _ :: _, [] => none
  | a :: as, c :: cs => if a = c then after? as cs else none

/-- The rest of a text after a given beginning. -/
def dropStart? (start s : String) : Option String :=
  (after? start.toList s.toList).map String.ofList

/-- Characters with every occurrence of `old`, from left to right, replaced by `new`; the first
argument counts the characters that a replacement has used up. -/
def replaceFrom (old new : List Char) : Nat → List Char → List Char
  | _, [] => []
  | used + 1, _ :: rest => replaceFrom old new used rest
  | 0, c :: rest =>
    if (after? old (c :: rest)).isSome then new ++ replaceFrom old new (old.length - 1) rest
    else c :: replaceFrom old new 0 rest

/-- The text with every occurrence of a text that is not empty replaced. -/
def replace (old new s : String) : String :=
  String.ofList (replaceFrom old.toList new.toList 0 s.toList)

/-- Whether a text begins with another. -/
def startsWith (start s : String) : Bool :=
  (after? start.toList s.toList).isSome

end Discourse.Text
