import Discourse.Attribution.Quote
import Discourse.Proofs.Dialogue.Minting
import Mathlib.Data.List.Induction
/-!
# The scanner of quotations

The scanner keeps one glyph open at a time (`openAfter`) and reports a quotation when it closes it.
What is quoted is said here by its reports alone: strictly between the glyphs of a quotation found,
or after the first opener behind all of them, which is the one it drops (`Document.isQuoted`).  The
state of the scanner at a token is found again in these reports (`isMetInside_eq`, `isQuoted_eq`).
-/

namespace Discourse

/-- Whether a token opens a quotation if none is open. -/
def Token.mayOpen (t : Token) : Bool := isOpeningGlyph t.word || isNeutralGlyph t.word

/-- Whether a token closes the quotation that is open. -/
def Token.mayClose (t : Token) : Bool := isClosingGlyph t.word || isNeutralGlyph t.word

/-! ## The scanner of quotations -/

/-- The glyph that is open after token `i`, given the one that was open before it. -/
def glyphStep (open? : Option Nat) (i : Nat) (t : Token) : Option Nat :=
  match open? with
  | none => if t.mayOpen then some i else none
  | some start => if t.mayClose then none else some start

/-- The glyph that is open after some tokens, the first of which has number `i`. -/
def openAfter (open? : Option Nat) (i : Nat) : List Token → Option Nat
  | [] => open?
  | t :: rest => openAfter (glyphStep open? i t) (i + 1) rest

theorem openAfter_append (open? : Option Nat) (i : Nat) (xs ys : List Token) :
    openAfter open? i (xs ++ ys) = openAfter (openAfter open? i xs) (i + xs.length) ys := by
  induction xs generalizing open? i with
  | nil => rfl
  | cons t rest ih =>
    rw [List.cons_append, openAfter, ih, List.length_cons, openAfter]
    congr 1
    omega

theorem quoteRanges_none_cons (i : Nat) (t : Token) (rest : List Token) :
    quoteRanges none i (t :: rest) = quoteRanges (glyphStep none i t) (i + 1) rest := by
  cases opens : t.mayOpen with
  | true => simp_all [quoteRanges, glyphStep, Token.mayOpen]
  | false => simp_all [quoteRanges, glyphStep, Token.mayOpen]

theorem quoteRanges_some_cons (start i : Nat) (t : Token) (rest : List Token) :
    quoteRanges (some start) i (t :: rest) =
      (if t.mayClose then [(start, i + 1)] else []) ++
        quoteRanges (glyphStep (some start) i t) (i + 1) rest := by
  cases closes : t.mayClose with
  | true => simp_all [quoteRanges, glyphStep, Token.mayClose]
  | false => simp_all [quoteRanges, glyphStep, Token.mayClose]

/-- The scanner finds in the first tokens what it finds in them alone. -/
theorem quoteRanges_append (open? : Option Nat) (i : Nat) (xs ys : List Token) :
    quoteRanges open? i (xs ++ ys) =
      quoteRanges open? i xs ++ quoteRanges (openAfter open? i xs) (i + xs.length) ys := by
  induction xs generalizing open? i with
  | nil => simp [quoteRanges, openAfter]
  | cons t rest ih =>
    have shift : i + 1 + rest.length = i + (t :: rest).length := by
      rw [List.length_cons]
      omega
    cases open? with
    | none =>
      rw [List.cons_append, quoteRanges_none_cons, quoteRanges_none_cons, ih, openAfter, shift]
    | some start =>
      rw [List.cons_append, quoteRanges_some_cons, quoteRanges_some_cons, ih, openAfter, shift,
        List.append_assoc]

theorem quoteRanges_bounds {open? : Option Nat} {i : Nat} {ts : List Token} {r : Nat × Nat}
    (mem : r ∈ quoteRanges open? i ts) :
    (open? = some r.1 ∨ i ≤ r.1) ∧ i < r.2 ∧ r.2 ≤ i + ts.length := by
  induction ts generalizing open? i with
  | nil => simp [quoteRanges] at mem
  | cons t rest ih =>
    cases open? with
    | none =>
      rw [quoteRanges_none_cons] at mem
      obtain ⟨first, above, below⟩ := ih mem
      refine ⟨.inr ?_, by omega, by rw [List.length_cons]; omega⟩
      rcases first with opened | later
      · simp only [glyphStep, Option.ite_none_right_eq_some, Option.some.injEq] at opened
        omega
      · omega
    | some start =>
      rw [quoteRanges_some_cons, List.mem_append] at mem
      rcases mem with closed | later
      · split at closed
        · obtain rfl := List.mem_singleton.mp closed
          exact ⟨.inl rfl, by simp, by simp⟩
        · cases closed
      · obtain ⟨first, above, below⟩ := ih later
        refine ⟨?_, by omega, by rw [List.length_cons]; omega⟩
        rcases first with opened | later
        · simp only [glyphStep, Option.ite_none_left_eq_some] at opened
          exact .inl opened.2
        · exact .inr (by omega)

/-- The open glyph is an opening or neutral one, behind all that is closed. -/
theorem openAfter_eq_some {ts : List Token} {start : Nat}
    (opened : openAfter none 0 ts = some start) :
    (∃ t, ts[start]? = some t ∧ t.mayOpen = true) ∧ start < ts.length ∧
      ∀ r ∈ quoteRanges none 0 ts, r.2 ≤ start := by
  induction ts using List.reverseRecOn with
  | nil => cases opened
  | append_singleton xs t ih =>
    rw [openAfter_append] at opened
    rw [quoteRanges_append]
    cases before : openAfter none 0 xs with
    | none =>
      rw [before, openAfter, openAfter, glyphStep, Option.ite_none_right_eq_some,
        Option.some.injEq, Nat.zero_add] at opened
      obtain ⟨opens, rfl⟩ := opened
      refine ⟨⟨t, by simp, opens⟩, by simp, fun r mem => ?_⟩
      rw [quoteRanges_none_cons, quoteRanges, List.append_nil] at mem
      have bounds := quoteRanges_bounds mem
      omega
    | some start' =>
      rw [before, openAfter, openAfter, glyphStep, Option.ite_none_left_eq_some,
        Option.some.injEq] at opened
      obtain ⟨stays, rfl⟩ := opened
      obtain ⟨⟨g, g_start, opens⟩, inside, behind⟩ := ih before
      refine ⟨⟨g, ?_, opens⟩, ?_, fun r mem => ?_⟩
      · rw [List.getElem?_append_left inside, g_start]
      · rw [List.length_append]
        omega
      · rw [quoteRanges_some_cons, if_neg stays, List.nil_append, quoteRanges,
          List.append_nil] at mem
        exact behind r mem

/-- A quotation that is open is closed somewhere, or stays open over all tokens to come. -/
theorem closes_or_stays (start i : Nat) (ts : List Token) :
    (∃ stop, (start, stop) ∈ quoteRanges (some start) i ts) ∨
      quoteRanges (some start) i ts = [] ∧ openAfter (some start) i ts = some start := by
  induction ts generalizing i with
  | nil => exact .inr ⟨rfl, rfl⟩
  | cons t rest ih =>
    rw [quoteRanges_some_cons, openAfter, glyphStep]
    cases t.mayClose with
    | true => exact .inl ⟨i + 1, by simp⟩
    | false => exact ih (i + 1)

theorem openAfter_of_words {xs ys : List Token} (same : xs.map Token.word = ys.map Token.word)
    (open? : Option Nat) (i : Nat) : openAfter open? i xs = openAfter open? i ys := by
  induction xs generalizing ys open? i with
  | nil =>
    obtain rfl := List.map_eq_nil_iff.mp same.symm
    rfl
  | cons x xs ih =>
    obtain ⟨y, ys, rfl, word, rest⟩ := List.map_eq_cons_iff.mp same.symm
    have opens : x.mayOpen = y.mayOpen := by rw [Token.mayOpen, Token.mayOpen, word]
    have closes : x.mayClose = y.mayClose := by rw [Token.mayClose, Token.mayClose, word]
    simp only [openAfter, glyphStep, opens, closes, ih rest.symm]

theorem exists_split_of_getElem? {ts : List Token} {i : Nat} {t : Token} (found : ts[i]? = some t) :
    ∃ pre rest, ts = pre ++ t :: rest ∧ pre.length = i := by
  obtain ⟨inside, rfl⟩ := List.getElem?_eq_some_iff.mp found
  refine ⟨ts.take i, ts.drop (i + 1), ?_, List.length_take_of_le (Nat.le_of_lt inside)⟩
  rw [List.getElem_cons_drop, List.take_append_drop]

/-! ## What is quoted -/

namespace Document

/-- The opener of the last quotation if that is never closed: the first opening or neutral glyph
behind all quotations found. -/
def unclosed? (doc : Document) : Option Nat :=
  (List.range doc.tokenCount).find? fun place =>
    doc.detectQuotes.all (fun q => q.tokenEnd ≤ place)
      && ((doc.token? place).map Token.mayOpen).getD false

/-- Whether a token comes after the opener of a quotation that is never closed. -/
def isAfterUnclosed (doc : Document) (place : Nat) : Bool :=
  (doc.unclosed?.map fun opener => decide (opener < place)).getD false

/-- Whether a token lies strictly between the glyphs of a quotation found, or after the opener of
the quotation that is never closed. -/
def isQuoted (doc : Document) (place : Nat) : Bool :=
  doc.detectQuotes.any (fun q => q.tokenBegin < place && place + 1 < q.tokenEnd)
    || doc.isAfterUnclosed place

/-- Whether a token is met inside a quotation: it is quoted or the closing glyph. -/
def isMetInside (doc : Document) (place : Nat) : Bool :=
  doc.detectQuotes.any (fun q => q.tokenBegin < place && place < q.tokenEnd)
    || doc.isAfterUnclosed place

/-- Whether a token is a quote opening: an opening glyph anywhere, or a neutral one met outside a
quotation. -/
def isOpening (doc : Document) (place : Nat) : Bool :=
  ((doc.token? place).map fun t =>
    isOpeningGlyph t.word || (isNeutralGlyph t.word && !doc.isMetInside place)).getD false

/-- The number of quote openings up to a token. -/
def openings (doc : Document) (place : Nat) : Nat := (List.range (place + 1)).countP doc.isOpening

section Detected

variable {doc : Document}

theorem map_range_detectQuotes (doc : Document) :
    doc.detectQuotes.map (fun q => (q.tokenBegin, q.tokenEnd)) = quoteRanges none 0 doc.tokens := by
  rw [detectQuotes, List.map_map]
  exact List.zipIdx_map_fst 0 _

theorem getElem?_detectQuotes (doc : Document) (i : Nat) :
    doc.detectQuotes[i]? = (quoteRanges none 0 doc.tokens)[i]?.map fun r =>
      doc.quotationOf i r.1 r.2 := by
  rw [detectQuotes, List.getElem?_map, List.getElem?_zipIdx, Option.map_map, Nat.zero_add]
  rfl

theorem any_detectQuotes (doc : Document) (p : Nat × Nat → Bool) :
    (doc.detectQuotes.any fun q => p (q.tokenBegin, q.tokenEnd)) =
      (quoteRanges none 0 doc.tokens).any p := by
  rw [← map_range_detectQuotes, List.any_map]
  rfl

theorem all_detectQuotes (doc : Document) (p : Nat × Nat → Bool) :
    (doc.detectQuotes.all fun q => p (q.tokenBegin, q.tokenEnd)) =
      (quoteRanges none 0 doc.tokens).all p := by
  rw [← map_range_detectQuotes, List.all_map]
  rfl

/-- An opening or neutral glyph behind all that is closed. -/
def LeavesOpen (doc : Document) (opener : Nat) : Prop :=
  (∃ t, doc.tokens[opener]? = some t ∧ t.mayOpen = true) ∧
    ∀ r ∈ quoteRanges none 0 doc.tokens, r.2 ≤ opener

theorem leavesOpen_iff (doc : Document) (opener : Nat) :
    (doc.detectQuotes.all (fun q => q.tokenEnd ≤ opener)
      && ((doc.token? opener).map Token.mayOpen).getD false) = true ↔ doc.LeavesOpen opener := by
  rw [all_detectQuotes doc fun r => decide (r.2 ≤ opener), Bool.and_eq_true, and_comm,
    List.all_eq_true, token?, LeavesOpen]
  refine and_congr ?_ (by simp)
  cases doc.tokens[opener]? <;> simp

theorem isAfterUnclosed_iff (doc : Document) (place : Nat) :
    doc.isAfterUnclosed place = true ↔ ∃ opener < place, doc.LeavesOpen opener := by
  rw [isAfterUnclosed]
  constructor
  · intro after
    cases found : doc.unclosed? with
    | none => simp [found] at after
    | some opener =>
      have leaves := List.find?_some found
      exact ⟨opener, by simpa [found] using after, (doc.leavesOpen_iff opener).mp leaves⟩
  · rintro ⟨opener, before, leaves⟩
    obtain ⟨t, token, -⟩ := leaves.1
    have known : opener < doc.tokenCount := by
      rw [tokenCount, ← length_flatMap_tokens]
      exact (List.getElem?_eq_some_iff.mp token).1
    cases found : doc.unclosed? with
    | none =>
      have none := List.find?_eq_none.mp found opener (List.mem_range.mpr known)
      exact absurd ((doc.leavesOpen_iff opener).mpr leaves) none
    | some first =>
      obtain ⟨-, -, earlier⟩ := List.find?_range_eq_some.mp found
      have le : first ≤ opener := by
        by_contra later
        have none := earlier opener (by omega)
        simp [(doc.leavesOpen_iff opener).mpr leaves] at none
      simp only [Option.map_some, Option.getD_some, decide_eq_true_eq]
      omega

theorem isMetInside_iff (doc : Document) (place : Nat) :
    doc.isMetInside place = true ↔
      (∃ r ∈ quoteRanges none 0 doc.tokens, r.1 < place ∧ place < r.2) ∨
        ∃ opener < place, doc.LeavesOpen opener := by
  rw [isMetInside, any_detectQuotes doc fun r => r.1 < place && place < r.2, Bool.or_eq_true,
    isAfterUnclosed_iff]
  simp only [List.any_eq_true, Bool.and_eq_true, decide_eq_true_eq]

theorem isQuoted_iff (doc : Document) (place : Nat) :
    doc.isQuoted place = true ↔
      (∃ r ∈ quoteRanges none 0 doc.tokens, r.1 < place ∧ place + 1 < r.2) ∨
        ∃ opener < place, doc.LeavesOpen opener := by
  rw [isQuoted, any_detectQuotes doc fun r => r.1 < place && place + 1 < r.2, Bool.or_eq_true,
    isAfterUnclosed_iff]
  simp only [List.any_eq_true, Bool.and_eq_true, decide_eq_true_eq]

/-- What is quoted is met inside a quotation, and so is the token behind it. -/
theorem isMetInside_of_isQuoted {place : Nat} (quoted : doc.isQuoted place = true) :
    doc.isMetInside place = true ∧ doc.isMetInside (place + 1) = true := by
  rw [isMetInside_iff, isMetInside_iff]
  rcases (doc.isQuoted_iff place).mp quoted with ⟨r, mem, begun, within⟩ | ⟨opener, before, leaves⟩
  · exact ⟨.inl ⟨r, mem, begun, by omega⟩, .inl ⟨r, mem, by omega, within⟩⟩
  · exact ⟨.inr ⟨opener, before, leaves⟩, .inr ⟨opener, by omega, leaves⟩⟩

section Split

variable {pre rest : List Token}

theorem openAfter_append_singleton (xs : List Token) (t : Token) :
    openAfter none 0 (xs ++ [t]) = glyphStep (openAfter none 0 xs) xs.length t := by
  rw [openAfter_append, Nat.zero_add]
  rfl

/-- What is open behind all that is closed stays open. -/
theorem openAfter_of_behind {xs ys : List Token} (split : doc.tokens = xs ++ ys ++ rest)
    {start : Nat} (opened : openAfter none 0 xs = some start)
    (behind : ∀ r ∈ quoteRanges none 0 doc.tokens, r.2 ≤ xs.length) :
    openAfter none 0 (xs ++ ys) = some start := by
  rw [openAfter_append, opened]
  rcases closes_or_stays start (0 + xs.length) ys with ⟨stop, mem⟩ | ⟨-, stays⟩
  · have within : (start, stop) ∈ quoteRanges none 0 doc.tokens := by
      rw [split, quoteRanges_append, quoteRanges_append, opened]
      exact List.mem_append_left _ (List.mem_append_right _ mem)
    have above := (quoteRanges_bounds mem).2.1
    have below := behind _ within
    omega
  · exact stays

theorem LeavesOpen.stays {opener : Nat} (leaves : doc.LeavesOpen opener)
    (split : doc.tokens = pre ++ rest) (before : opener < pre.length) :
    (openAfter none 0 pre).isSome = true := by
  obtain ⟨⟨t, token, opens⟩, behind⟩ := leaves
  rw [split, List.getElem?_append_left before] at token
  obtain ⟨xs, ys, rfl, rfl⟩ := exists_split_of_getElem? token
  cases opened : openAfter none 0 xs with
  | some start =>
    rw [openAfter_of_behind split opened behind]
    rfl
  | none =>
    -- nothing is open at the opener, so that it opens itself
    have opened : openAfter none 0 (xs ++ [t]) = some xs.length := by
      rw [openAfter_append_singleton, opened, glyphStep, if_pos opens]
    rw [List.append_cons] at split ⊢
    rw [openAfter_of_behind split opened fun r mem => by simp [behind r mem, Nat.le_succ_of_le]]
    rfl

theorem range_of_closed (split : doc.tokens = pre ++ rest) (closed : openAfter none 0 pre = none)
    {r : Nat × Nat} (mem : r ∈ quoteRanges none 0 doc.tokens) :
    r.2 ≤ pre.length ∨ pre.length ≤ r.1 := by
  rw [split, quoteRanges_append, closed, List.mem_append] at mem
  rcases mem with mem | mem
  · have bounds := quoteRanges_bounds mem
    exact .inl (by omega)
  · have bounds := quoteRanges_bounds mem
    exact .inr (by simpa using bounds.1)

/-- A quotation that is open is closed further on or never. -/
theorem range_of_opened (split : doc.tokens = pre ++ rest) {start : Nat}
    (opened : openAfter none 0 pre = some start) :
    start < pre.length ∧
      ((∃ stop, pre.length < stop ∧ (start, stop) ∈ quoteRanges none 0 doc.tokens) ∨
        doc.LeavesOpen start) := by
  obtain ⟨⟨t, token, opens⟩, inside, behind⟩ := openAfter_eq_some opened
  have parts := quoteRanges_append none 0 pre rest
  rw [← split, opened] at parts
  refine ⟨inside, ?_⟩
  rcases closes_or_stays start (0 + pre.length) rest with ⟨stop, mem⟩ | ⟨none, -⟩
  · have bounds := quoteRanges_bounds mem
    exact .inl ⟨stop, by omega, by rw [parts]; exact List.mem_append_right _ mem⟩
  · refine .inr ⟨⟨t, ?_, opens⟩, fun r mem => ?_⟩
    · rw [split, List.getElem?_append_left inside, token]
    · rw [parts, none, List.append_nil] at mem
      exact behind r mem

theorem isMetInside_eq (split : doc.tokens = pre ++ rest) :
    doc.isMetInside pre.length = (openAfter none 0 pre).isSome := by
  rw [Bool.eq_iff_iff, isMetInside_iff]
  constructor
  · rintro (⟨r, mem, begun, within⟩ | ⟨opener, before, leaves⟩)
    · by_contra closed
      have range := range_of_closed split (by simpa using closed) mem
      omega
    · exact leaves.stays split before
  · intro opened
    obtain ⟨start, opened⟩ := Option.isSome_iff_exists.mp opened
    obtain ⟨inside, ⟨stop, behind, mem⟩ | leaves⟩ := range_of_opened split opened
    · exact .inl ⟨_, mem, inside, behind⟩
    · exact .inr ⟨start, inside, leaves⟩

end Split

theorem isQuoted_eq {pre rest : List Token} {t : Token} (split : doc.tokens = pre ++ t :: rest) :
    doc.isQuoted pre.length = ((openAfter none 0 pre).isSome && !t.mayClose) := by
  have next : doc.tokens = (pre ++ [t]) ++ rest := by
    rw [split, List.append_assoc]
    rfl
  have length : (pre ++ [t]).length = pre.length + 1 := List.length_append
  have step := openAfter_append_singleton pre t
  rw [Bool.eq_iff_iff, Bool.and_eq_true, Bool.not_eq_true']
  constructor
  · intro quoted
    obtain ⟨before, after⟩ := isMetInside_of_isQuoted quoted
    rw [isMetInside_eq split] at before
    rw [← length, isMetInside_eq next, step] at after
    obtain ⟨start, opened⟩ := Option.isSome_iff_exists.mp before
    refine ⟨before, ?_⟩
    by_contra closes
    rw [opened, glyphStep, if_pos (by simpa using closes)] at after
    cases after
  · rintro ⟨before, stays⟩
    obtain ⟨start, opened⟩ := Option.isSome_iff_exists.mp before
    have after : openAfter none 0 (pre ++ [t]) = some start := by
      rw [step, opened, glyphStep, if_neg (by simp [stays])]
    have inside := (range_of_opened split opened).1
    rw [isQuoted_iff]
    rcases (range_of_opened next after).2 with ⟨stop, behind, mem⟩ | leaves
    · exact .inl ⟨_, mem, inside, by omega⟩
    · exact .inr ⟨start, inside, leaves⟩

section Words

variable {pre rest : List Token}

theorem isMetInside_of_words (words : doc.tokens.map Token.word = (pre ++ rest).map Token.word) :
    doc.isMetInside pre.length = (openAfter none 0 pre).isSome := by
  rw [List.map_append] at words
  obtain ⟨xs, ys, split, same, -⟩ := List.map_eq_append_iff.mp words
  have length : xs.length = pre.length := by simpa using congrArg List.length same
  rw [← length, isMetInside_eq split, openAfter_of_words same]

theorem isQuoted_of_words {t : Token}
    (words : doc.tokens.map Token.word = (pre ++ t :: rest).map Token.word) :
    doc.isQuoted pre.length = ((openAfter none 0 pre).isSome && !t.mayClose) := by
  rw [List.map_append] at words
  obtain ⟨xs, ys, split, same, next⟩ := List.map_eq_append_iff.mp words
  obtain ⟨u, zs, rfl, word, -⟩ := List.map_eq_cons_iff.mp next
  have length : xs.length = pre.length := by simpa using congrArg List.length same
  rw [← length, isQuoted_eq split, openAfter_of_words same, Token.mayClose, Token.mayClose, word]

theorem isOpening_of_words {t : Token}
    (words : doc.tokens.map Token.word = (pre ++ t :: rest).map Token.word) :
    doc.isOpening pre.length =
      (isOpeningGlyph t.word || (isNeutralGlyph t.word && !(openAfter none 0 pre).isSome)) := by
  have word : (doc.token? pre.length).map Token.word = some t.word := by
    rw [token?, ← List.getElem?_map, words]
    simp
  obtain ⟨u, token, word⟩ := Option.map_eq_some_iff.mp word
  rw [isOpening, token, isMetInside_of_words words, Option.map_some, Option.getD_some, word]

end Words

end Detected

end Document

end Discourse
