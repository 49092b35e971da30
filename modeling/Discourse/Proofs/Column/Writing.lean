import Discourse.Source.Columns
/-!
# Values that are written

The value of a token says of each span that starts or ends there so much: that it starts, that it
ends, or both (`ColumnPiece`).  Pieces stand in a row with bars between them.  Characters are read
one by one, but in effect a value is read piece by piece (`readColumn_columnValue`), since a bar or
the end of the value comes behind every piece, and a label has neither brackets nor bars in it.
-/

namespace Discourse

/-- What a value says of one span. -/
inductive ColumnPiece
  /-- It starts here and ends further on. -/
  | opening (label : String)
  /-- It is this token alone. -/
  | single (label : String)
  /-- It started further back and ends here. -/
  | closing (label : String)
deriving DecidableEq, Repr

namespace ColumnPiece

/-- The label of the span. -/
def label : ColumnPiece → String
  | opening label | single label | closing label => label

/-- The piece as it is written. -/
def text : ColumnPiece → String
  | opening label => "(" ++ label
  | single label => "(" ++ label ++ ")"
  | closing label => label ++ ")"

/-- The state of the column once the piece has been read at a token. -/
def read? (token : Nat) (st : ColumnState) : ColumnPiece → Option ColumnState
  | opening label => some { st with pending := (token, label) :: st.pending }
  | single label => some { st with done := ⟨token, token + 1, label⟩ :: st.done }
  | closing label => st.close? token fun span => span.2 == label

end ColumnPiece

/-- The value of a token: its pieces with bars between them, or the marker if there are none. -/
def columnValue (marker : String) (pieces : List ColumnPiece) : String :=
  if pieces.isEmpty then marker else "|".intercalate (pieces.map ColumnPiece.text)

/-- A text without brackets and bars. -/
def IsLabel (text : String) : Prop := ∀ c ∈ text.toList, isDelimiter c = false

instance (text : String) : Decidable (IsLabel text) :=
  List.decidableBAll (fun c => isDelimiter c = false) text.toList

/-! ## One piece -/

namespace ColumnState

variable (token : Nat) (st : ColumnState)

theorem readValue_plain (style : ColumnStyle) (opens : Bool) {cs : List Char}
    (plain : ∀ c ∈ cs, isDelimiter c = false) (label rest : List Char) :
    readValue style token opens label st (cs ++ rest) =
      readValue style token opens (cs.reverse ++ label) st rest := by
  induction cs generalizing label with
  | nil => rfl
  | cons c cs ih =>
    obtain ⟨plain_c, plain⟩ := List.forall_mem_cons.mp plain
    rw [List.cons_append, readValue, plain_c, Bool.not_false, if_pos rfl, ih plain,
      List.reverse_cons, List.append_assoc, List.singleton_append]

theorem clean_coreferenceStyle (label : List Char) :
    coreferenceStyle.clean label = String.ofList label := rfl

/-- The state with one more span open. -/
def opened (label : String) : ColumnState := { st with pending := (token, label) :: st.pending }

theorem close?_opened (label : String) :
    (st.opened token label).close? token (fun span => span.2 == label) =
      some { st with done := ⟨token, token + 1, label⟩ :: st.done } := by
  simp [close?, opened]

/-- What is behind a piece: nothing, or a bar. -/
def EndsPiece (rest : List Char) : Prop := rest = [] ∨ ∃ tail, rest = '|' :: tail

section Ends

variable {rest : List Char} {label : String}

theorem readValue_drop (ends : EndsPiece rest) :
    readValue coreferenceStyle token false [] st rest =
      readValue coreferenceStyle token false [] st (rest.drop 1) := by
  rcases ends with rfl | ⟨tail, rfl⟩
  · rfl
  · rfl

/-- Behind an opening bracket a bar or the end starts the span. -/
theorem readValue_opening (isLabel : IsLabel label) (ends : EndsPiece rest) :
    readValue coreferenceStyle token true [] st (label.toList ++ rest) =
      readValue coreferenceStyle token false [] (st.opened token label) (rest.drop 1) := by
  rw [readValue_plain token st _ true isLabel, List.append_nil]
  rcases ends with rfl | ⟨tail, rfl⟩
  · rw [readValue, List.reverse_reverse, clean_coreferenceStyle, String.ofList_toList]
    rfl
  · rw [readValue, List.reverse_reverse, clean_coreferenceStyle, String.ofList_toList]
    rfl

/-- A closing bracket ends the innermost span with the label in front of it, which may be the one
that the label has just started. -/
theorem readValue_closing (opens : Bool) (isLabel : IsLabel label) (ends : EndsPiece rest) :
    readValue coreferenceStyle token opens [] st (label.toList ++ ')' :: rest) =
      ((if opens then st.opened token label else st).close? token fun span =>
          span.2 == label).bind fun st =>
        readValue coreferenceStyle token false [] st (rest.drop 1) := by
  have closing (st : ColumnState) :
      (st.close? token fun span => !coreferenceStyle.closesByLabel || span.2 == label) =
        st.close? token fun span => span.2 == label := rfl
  rw [readValue_plain token st _ opens isLabel, List.append_nil, readValue, List.reverse_reverse,
    clean_coreferenceStyle, String.ofList_toList]
  have opened : (if opens then { st with pending := (token, label) :: st.pending } else st) =
      if opens then st.opened token label else st := rfl
  simp only [closing]
  rw [opened]
  cases (if opens then st.opened token label else st).close? token fun span => span.2 == label with
  | none => rfl
  | some st => exact readValue_drop token st ends

theorem readValue_piece (p : ColumnPiece) (isLabel : IsLabel p.label) (ends : EndsPiece rest) :
    readValue coreferenceStyle token false [] st (p.text.toList ++ rest) =
      (p.read? token st).bind fun st =>
        readValue coreferenceStyle token false [] st (rest.drop 1) := by
  cases p with
  | opening label =>
    rw [ColumnPiece.text, String.toList_append]
    exact readValue_opening token st isLabel ends
  | single label =>
    rw [ColumnPiece.text, String.toList_append, String.toList_append, List.append_assoc,
      List.append_assoc]
    refine (readValue_closing token st true isLabel ends).trans ?_
    rw [if_pos rfl, close?_opened]
    rfl
  | closing label =>
    rw [ColumnPiece.text, String.toList_append, List.append_assoc]
    exact readValue_closing token st false isLabel ends

end Ends

/-! ## All pieces of a value -/

variable {pieces : List ColumnPiece}

theorem toList_intercalate_text (p : ColumnPiece) (pieces : List ColumnPiece) :
    ∃ rest, ("|".intercalate ((p :: pieces).map ColumnPiece.text)).toList =
        p.text.toList ++ rest ∧ EndsPiece rest ∧
      rest.drop 1 = ("|".intercalate (pieces.map ColumnPiece.text)).toList := by
  rw [List.map_cons, String.toList_intercalate, String.toList_intercalate, List.map_cons]
  cases pieces with
  | nil => exact ⟨[], by simp, .inl rfl, rfl⟩
  | cons q pieces =>
    rw [List.map_cons, List.map_cons, List.intercalate_cons_cons, List.append_assoc]
    exact ⟨_, rfl, .inr ⟨_, rfl⟩, rfl⟩

theorem readValue_intercalate (labels : ∀ p ∈ pieces, IsLabel p.label) :
    readValue coreferenceStyle token false [] st
        ("|".intercalate (pieces.map ColumnPiece.text)).toList =
      pieces.foldlM (ColumnPiece.read? token) st := by
  induction pieces generalizing st with
  | nil => rfl
  | cons p pieces ih =>
    obtain ⟨isLabel, labels⟩ := List.forall_mem_cons.mp labels
    obtain ⟨rest, text, ends, next⟩ := toList_intercalate_text p pieces
    rw [text, readValue_piece token st p isLabel ends, next, List.foldlM_cons]
    exact congrArg _ (funext fun st => ih st labels)

/-- A bracket tells a value with pieces from the marker. -/
theorem columnValue_ne (nonempty : pieces ≠ []) {marker : String} (plain : IsLabel marker) :
    columnValue marker pieces ≠ marker := by
  obtain ⟨p, pieces, rfl⟩ := List.exists_cons_of_ne_nil nonempty
  obtain ⟨rest, text, -⟩ := toList_intercalate_text p pieces
  have bracket : ∃ c ∈ p.text.toList, isDelimiter c = true := by
    cases p with
    | opening label => exact ⟨'(', by simp [ColumnPiece.text], rfl⟩
    | single label => exact ⟨'(', by simp [ColumnPiece.text], rfl⟩
    | closing label => exact ⟨')', by simp [ColumnPiece.text], rfl⟩
  obtain ⟨c, mem, delimits⟩ := bracket
  intro same
  rw [columnValue, if_neg (by simp)] at same
  rw [same] at text
  have plain := plain c (text ▸ List.mem_append_left rest mem)
  rw [plain] at delimits
  cases delimits

/-- A value is read piece by piece. -/
theorem readColumn_columnValue (labels : ∀ p ∈ pieces, IsLabel p.label) (rest : List String) :
    readColumn coreferenceStyle token st (columnValue coreferenceStyle.marker pieces :: rest) =
      match pieces.foldlM (ColumnPiece.read? token) st with
      | some st => readColumn coreferenceStyle (token + 1) st rest
      | none => .error token := by
  rw [readColumn]
  cases pieces with
  | nil => rw [columnValue, List.isEmpty_nil, if_pos rfl, if_pos rfl]; rfl
  | cons p pieces =>
    have marker : IsLabel coreferenceStyle.marker := by decide
    rewrite [if_neg (columnValue_ne (List.cons_ne_nil p pieces) marker), columnValue,
      List.isEmpty_cons, if_neg Bool.false_ne_true, readValue_intercalate token st labels]
    cases (p :: pieces).foldlM (ColumnPiece.read? token) st <;> rfl

end ColumnState

end Discourse
