import Mathlib.Logic.Basic
import Discourse.Proofs.Column.Reading
/-!
# A column file line by line

A file is read line by line: token lines wait for the end of their sentence, and sentences for the
end of their document.  What a file waits for can be told from its lines (`ColumnFile.After`); two
files that wait for the same lines, but for the numbers of these, go on alike
(`ColumnFile.Alike.readFrom`); and each sentence of a document is read from token lines of the text
(`ColumnFile.MadeOf.readFrom`).
-/

namespace Discourse

/-! ## Lines -/

/-- The line begins a document. -/
def BeginsDocument (line : String) : Prop := ∃ id, ColumnLine.ofString line = .begins id

/-- The line ends a document. -/
def EndsDocument (line : String) : Prop := ColumnLine.ofString line = .ends

instance (line : String) : Decidable (EndsDocument line) :=
  inferInstanceAs (Decidable (_ = _))

/-- The token lines that wait for the end of their sentence after one more line. -/
def stillWaiting (waiting : List String) (line : String) : List String :=
  match ColumnLine.ofString line with
  | .row _ => waiting ++ [line]
  | .begins _ => waiting
  | .blank | .ends => []

/-- The token lines that wait for the end of their sentence at the end of a row of lines. -/
def unfinished (lines : List String) : List String := lines.foldl stillWaiting []

theorem unfinished_append_singleton (lines : List String) (line : String) :
    unfinished (lines ++ [line]) = stillWaiting (unfinished lines) line := by
  rw [unfinished, List.foldl_append, List.foldl_cons, List.foldl_nil, unfinished]

theorem mem_unfinished {lines : List String} {line : String} (mem : line ∈ unfinished lines) :
    line ∈ lines ∧ ∃ fields, ColumnLine.ofString line = .row fields := by
  refine List.foldlRecOn (motive := fun waiting => ∀ line ∈ waiting,
    line ∈ lines ∧ ∃ fields, ColumnLine.ofString line = .row fields) lines stillWaiting
    (fun _ none => absurd none List.not_mem_nil) ?_ line mem
  intro waiting rows next listed line mem
  unfold stillWaiting at mem
  split at mem
  next fields kind =>
    rcases List.mem_append.mp mem with mem | mem
    · exact rows line mem
    · cases List.mem_singleton.mp mem
      exact ⟨listed, fields, kind⟩
  next => exact rows line mem
  next => cases mem
  next => cases mem

/-! ## What a document holds -/

/-- What a document holds, without the numbers of its lines. -/
def PendingDocument.contents (doc : PendingDocument) : String × List (List (List String)) :=
  (doc.id, doc.sentences.map (List.map TokenRow.fields))

theorem readSentences_of_contents {doc doc' : PendingDocument} {built : Document × RawMentions}
    (same : doc.contents = doc'.contents) (read : readSentences doc.id doc.sentences = .ok built) :
    readSentences doc'.id doc'.sentences = .ok built := by
  obtain ⟨id, sentences⟩ := Prod.mk.inj same
  rw [← id]
  exact readSentences_of_fields sentences read

namespace ColumnFile

/-! ## One line -/

section ReadLine

variable {f f' : ColumnFile} {n : Nat}

/-- A blank line ends the sentence of the document that is open. -/
theorem readLine_blank : f.readLine n .blank = .ok { f with
    pending? := f.pending?.map (closeSentence · f.rows)
    rows := if f.pending?.isSome then [] else f.rows } := by
  unfold readLine
  cases open? : f.pending? with
  | none =>
    obtain ⟨finished, pending?, rows⟩ := f
    cases open?
    rfl
  | some doc => rfl

theorem readLine_ends_eq_ok_iff :
    f.readLine n .ends = .ok f' ↔ ∃ doc built, f.pending? = some doc ∧
      readSentences (closeSentence doc f.rows).id (closeSentence doc f.rows).sentences = .ok built ∧
      f' = { finished := f.finished ++ [built] } := by
  unfold readLine
  cases open? : f.pending? with
  | none => simp
  | some doc =>
    refine Iff.trans map_eq_ok_iff ?_
    constructor
    · rintro ⟨built, each, rfl⟩
      exact ⟨doc, built, rfl, each, rfl⟩
    · rintro ⟨_, built, ⟨⟩, each, rfl⟩
      exact ⟨built, each, rfl⟩

theorem readLine_row_eq_ok_iff {fields : List String} :
    f.readLine n (.row fields) = .ok f' ↔ f.pending?.isSome ∧
      TokenRow.leastFields ≤ fields.length ∧ f' = { f with rows := f.rows ++ [⟨n, fields⟩] } := by
  unfold readLine
  cases open? : f.pending? with
  | none => simp
  | some doc =>
    dsimp only [Option.isNone_some, Option.isSome_some]
    rw [if_neg Bool.false_ne_true]
    split
    next few => simp [Nat.not_le_of_lt few]
    next enough => simp [Nat.le_of_not_lt enough, eq_comm]

end ReadLine

/-! ## Files that go on alike -/

theorem contents_closeSentence (doc : PendingDocument) (rows : List TokenRow) :
    (closeSentence doc rows).contents = (doc.contents.1, doc.contents.2 ++
      if (rows.map TokenRow.fields).isEmpty then [] else [rows.map TokenRow.fields]) := by
  rw [closeSentence, List.isEmpty_map]
  split
  · rw [List.append_nil]
  · rw [PendingDocument.contents, List.map_append]
    rfl

theorem contents_closeSentence_congr {doc doc' : PendingDocument} {rows rows' : List TokenRow}
    (contents : doc.contents = doc'.contents)
    (same : rows.map TokenRow.fields = rows'.map TokenRow.fields) :
    (closeSentence doc rows).contents = (closeSentence doc' rows').contents := by
  rw [contents_closeSentence, contents_closeSentence, contents, same]

/-- Two files that wait for the ends of the same documents and sentences. -/
structure Alike (f g : ColumnFile) : Prop where
  pending : f.pending?.map PendingDocument.contents = g.pending?.map PendingDocument.contents
  rows : f.rows.map TokenRow.fields = g.rows.map TokenRow.fields

theorem Alike.refl (f : ColumnFile) : Alike f f := ⟨rfl, rfl⟩

theorem Alike.isSome {f g : ColumnFile} (alike : Alike f g) :
    f.pending?.isSome = g.pending?.isSome := by
  rw [← Option.isSome_map (f := PendingDocument.contents), alike.pending, Option.isSome_map]

/-- A line that goes through in one of two such files goes through in the other, and finishes the
same document if it finishes one. -/
theorem Alike.readLine {f f' g : ColumnFile} {line : ColumnLine} {n : Nat} (alike : Alike f g)
    (read : f.readLine n line = .ok f') (m : Nat) :
    ∃ g' built, g.readLine m line = .ok g' ∧ Alike f' g' ∧ f'.finished = f.finished ++ built ∧
      g'.finished = g.finished ++ built ∧ built.length = if line = .ends then 1 else 0 := by
  have isSome := alike.isSome
  obtain ⟨pending, rows⟩ := alike
  cases line with
  | blank =>
    rw [readLine_blank] at read
    cases read
    refine ⟨_, [], readLine_blank, ⟨?_, ?_⟩, (List.append_nil _).symm, (List.append_nil _).symm,
      rfl⟩
    · cases open? : f.pending? with
      | none =>
        rw [open?, Option.map_none, eq_comm, Option.map_eq_none_iff] at pending
        rw [pending]
        rfl
      | some doc =>
        rw [open?, Option.map_some, eq_comm, Option.map_eq_some_iff] at pending
        obtain ⟨doc', open'?, contents⟩ := pending
        rw [open'?]
        exact congrArg some (contents_closeSentence_congr contents.symm rows)
    · dsimp only
      rw [isSome]
      split
      · rfl
      · exact rows
  | begins id =>
    cases read
    exact ⟨_, [], rfl, ⟨rfl, rows⟩, (List.append_nil _).symm, (List.append_nil _).symm, rfl⟩
  | ends =>
    obtain ⟨doc, built, open?, each, rfl⟩ := readLine_ends_eq_ok_iff.mp read
    rw [open?, Option.map_some, eq_comm, Option.map_eq_some_iff] at pending
    obtain ⟨doc', open'?, contents⟩ := pending
    have each' := readSentences_of_contents (contents_closeSentence_congr contents.symm rows) each
    exact ⟨_, [built], readLine_ends_eq_ok_iff.mpr ⟨doc', built, open'?, each', rfl⟩, ⟨rfl, rfl⟩,
      rfl, rfl, rfl⟩
  | row fields =>
    obtain ⟨begun, enough, rfl⟩ := readLine_row_eq_ok_iff.mp read
    refine ⟨_, [], readLine_row_eq_ok_iff.mpr ⟨isSome ▸ begun, enough, rfl⟩, ⟨pending, ?_⟩,
      (List.append_nil _).symm, (List.append_nil _).symm, rfl⟩
    rw [List.map_append, rows, List.map_append]
    rfl

/-! ## A row of lines -/

/-- The file after a row of lines of which the first has a given number. -/
def readFrom (file : ColumnFile) (number : Nat) (lines : List String) :
    Except ReadError ColumnFile :=
  file.readLines ((lines.map ColumnLine.ofString).zipIdx number)

section ReadFrom

variable {f f' g : ColumnFile} {n : Nat}

theorem readFrom_cons_eq_ok_iff {line : String} {lines : List String} :
    f.readFrom n (line :: lines) = .ok f' ↔
      ∃ next, f.readLine n (ColumnLine.ofString line) = .ok next ∧
        next.readFrom (n + 1) lines = .ok f' :=
  bind_eq_ok_iff

theorem readFrom_append_eq_ok_iff {front back : List String} :
    f.readFrom n (front ++ back) = .ok f' ↔
      ∃ mid, f.readFrom n front = .ok mid ∧ mid.readFrom (n + front.length) back = .ok f' := by
  induction front generalizing f n with
  | nil => simp [readFrom, readLines]
  | cons line front ih =>
    rw [List.cons_append, readFrom_cons_eq_ok_iff]
    simp only [readFrom_cons_eq_ok_iff, ih, List.length_cons, Nat.add_assoc, Nat.add_comm 1]
    constructor
    · rintro ⟨next, first, mid, rest, last⟩
      exact ⟨mid, ⟨next, first, rest⟩, last⟩
    · rintro ⟨mid, ⟨next, first, rest⟩, last⟩
      exact ⟨next, first, mid, rest, last⟩

/-- Lines that go through in one of two files that go on alike go through in the other, and finish
the same documents. -/
theorem Alike.readFrom {lines lines' : List String} (alike : Alike f g)
    (same : lines.map ColumnLine.ofString = lines'.map ColumnLine.ofString)
    (read : f.readFrom n lines = .ok f') (m : Nat) :
    ∃ g' built, g.readFrom m lines' = .ok g' ∧ Alike f' g' ∧ f'.finished = f.finished ++ built ∧
      g'.finished = g.finished ++ built ∧ built.length = lines.countP EndsDocument := by
  induction lines generalizing f g n m lines' with
  | nil =>
    rw [List.map_nil, eq_comm, List.map_eq_nil_iff] at same
    cases same
    cases read
    exact ⟨g, [], rfl, alike, (List.append_nil _).symm, (List.append_nil _).symm, rfl⟩
  | cons line lines ih =>
    cases lines' with
    | nil => cases same
    | cons line' lines' =>
      obtain ⟨first, others⟩ := List.cons.inj same
      obtain ⟨next, here, rest⟩ := readFrom_cons_eq_ok_iff.mp read
      obtain ⟨next', built, here', alike, ended, ended', one⟩ := alike.readLine here m
      obtain ⟨g', later, rest', alike, done, done', more⟩ := ih alike others rest (m + 1)
      refine ⟨g', built ++ later, readFrom_cons_eq_ok_iff.mpr ⟨next', first ▸ here', rest'⟩, alike,
        ?_, ?_, ?_⟩
      · rw [done, ended, List.append_assoc]
      · rw [done', ended', List.append_assoc]
      · rw [List.length_append, one, more, List.countP_cons, Nat.add_comm]
        exact congrArg _ (if_congr decide_eq_true_iff.symm rfl rfl)

/-- A file finishes a document at each line that ends one. -/
theorem finished_readFrom {lines : List String} (read : f.readFrom n lines = .ok f') :
    ∃ built, f'.finished = f.finished ++ built ∧ built.length = lines.countP EndsDocument := by
  obtain ⟨g, built, -, -, finished, -, length⟩ := (Alike.refl f).readFrom rfl read n
  exact ⟨built, finished, length⟩

/-- Token lines with enough fields go through in a document that is open. -/
theorem exists_readFrom_rows {lines : List String} {rows : List TokenRow}
    (begun : f.pending?.isSome)
    (same : lines.map ColumnLine.ofString = rows.map fun row => .row row.fields)
    (enough : ∀ row ∈ rows, TokenRow.leastFields ≤ row.fields.length) (n : Nat) :
    ∃ f', f.readFrom n lines = .ok f' ∧ f'.finished = f.finished ∧ f'.pending? = f.pending? ∧
      f'.rows.map TokenRow.fields = f.rows.map TokenRow.fields ++ rows.map TokenRow.fields := by
  induction lines generalizing f n rows with
  | nil =>
    rw [List.map_nil, eq_comm, List.map_eq_nil_iff] at same
    cases same
    exact ⟨f, rfl, rfl, rfl, (List.append_nil _).symm⟩
  | cons line lines ih =>
    cases rows with
    | nil => cases same
    | cons row rows =>
      obtain ⟨first, others⟩ := List.cons.inj same
      obtain ⟨long, enough⟩ := List.forall_mem_cons.mp enough
      let next : ColumnFile := { f with rows := f.rows ++ [⟨n, row.fields⟩] }
      obtain ⟨f', rest, finished, pending, waiting⟩ :=
        ih (f := next) begun others enough (n + 1)
      refine ⟨f', readFrom_cons_eq_ok_iff.mpr ⟨next, ?_, rest⟩, finished, pending, ?_⟩
      · rw [first]
        exact readLine_row_eq_ok_iff.mpr ⟨begun, long, rfl⟩
      · rw [waiting, List.map_append, List.append_assoc]
        rfl

end ReadFrom

/-! ## What is left over -/

/-- What a file waits for after a row of lines. -/
structure After (lines : List String) (file : ColumnFile) : Prop where
  waiting : (unfinished lines).map ColumnLine.ofString = file.rows.map fun row => .row row.fields
  enough : ∀ row ∈ file.rows, TokenRow.leastFields ≤ row.fields.length
  closed : file.pending? = none → file.rows = []
  begun : file.pending?.isSome → ∃ before start own, lines = before ++ start :: own ∧
    BeginsDocument start ∧ ∀ line ∈ own, ¬BeginsDocument line ∧ ¬EndsDocument line

theorem After.nil : After [] {} where
  waiting := rfl
  enough _ mem := absurd mem List.not_mem_nil
  closed _ := rfl
  begun open? := absurd open? Bool.false_ne_true

/-- A line that neither begins nor ends a document belongs to the document that is open. -/
theorem After.begun_append {lines : List String} {file : ColumnFile} {line : String}
    (after : After lines file) (inner : ¬BeginsDocument line ∧ ¬EndsDocument line)
    (open? : file.pending?.isSome) :
    ∃ before start own, lines ++ [line] = before ++ start :: own ∧ BeginsDocument start ∧
      ∀ line ∈ own, ¬BeginsDocument line ∧ ¬EndsDocument line := by
  obtain ⟨before, start, own, rfl, begins, inside⟩ := after.begun open?
  refine ⟨before, start, own ++ [line], by simp, begins, ?_⟩
  exact List.forall_mem_append.mpr ⟨inside, List.forall_mem_singleton.mpr inner⟩

theorem After.readLine {lines : List String} {file file' : ColumnFile} {line : String} {n : Nat}
    (after : After lines file) (read : file.readLine n (ColumnLine.ofString line) = .ok file') :
    After (lines ++ [line]) file' := by
  have left := unfinished_append_singleton lines line
  unfold stillWaiting at left
  cases kind : ColumnLine.ofString line with
  | blank =>
    have inner : ¬BeginsDocument line ∧ ¬EndsDocument line := by
      simp [BeginsDocument, EndsDocument, kind]
    rw [kind] at left
    rw [kind, readLine_blank] at read
    have rows : (if file.pending?.isSome then [] else file.rows) = [] := by
      split
      next => rfl
      next shut => exact after.closed (Option.not_isSome_iff_eq_none.mp shut)
    cases read
    rw [rows]
    refine ⟨?_, fun _ mem => absurd mem List.not_mem_nil, fun _ => rfl, ?_⟩
    · rw [left]
      rfl
    · rw [Option.isSome_map]
      exact after.begun_append inner
  | begins id =>
    rw [kind] at left read
    cases read
    exact ⟨left ▸ after.waiting, after.enough, fun open? => absurd open? (Option.some_ne_none _),
      fun _ => ⟨lines, line, [], rfl, ⟨id, kind⟩, fun _ mem => absurd mem List.not_mem_nil⟩⟩
  | ends =>
    rw [kind] at left read
    obtain ⟨doc, built, -, -, rfl⟩ := readLine_ends_eq_ok_iff.mp read
    refine ⟨?_, fun _ mem => absurd mem List.not_mem_nil, fun _ => rfl,
      fun open? => absurd open? Bool.false_ne_true⟩
    rw [left]
    rfl
  | row fields =>
    have inner : ¬BeginsDocument line ∧ ¬EndsDocument line := by
      simp [BeginsDocument, EndsDocument, kind]
    rw [kind] at left read
    obtain ⟨begun, enough, rfl⟩ := readLine_row_eq_ok_iff.mp read
    refine ⟨?_, ?_, fun shut => ?_, after.begun_append inner⟩
    · rw [left, List.map_append, List.map_append, after.waiting, List.map_singleton, kind]
      rfl
    · exact List.forall_mem_append.mpr ⟨after.enough, List.forall_mem_singleton.mpr enough⟩
    · rw [shut] at begun
      cases begun

theorem After.readFrom {lines more : List String} {file file' : ColumnFile} {n : Nat}
    (after : After lines file) (read : file.readFrom n more = .ok file') :
    After (lines ++ more) file' := by
  induction more generalizing lines file n with
  | nil =>
    cases read
    rwa [List.append_nil]
  | cons line more ih =>
    obtain ⟨next, here, rest⟩ := readFrom_cons_eq_ok_iff.mp read
    rw [List.append_cons]
    exact ih (after.readLine here) rest

/-! ## Words -/

/-- The word of a line, if it is a token line. -/
def lineWord (line : String) : List String :=
  match ColumnLine.ofString line with
  | .row fields => [TokenRow.word ⟨0, fields⟩]
  | _ => []

/-- All words that a file holds, in documents that are finished and in what is to come. -/
def words (file : ColumnFile) : List String :=
  file.finished.flatMap (fun built => built.1.tokens.map Token.word) ++
    (file.pending?.toList.flatMap fun doc => doc.sentences.flatten.map TokenRow.word) ++
    file.rows.map TokenRow.word

theorem flatten_closeSentence (doc : PendingDocument) (rows : List TokenRow) :
    (closeSentence doc rows).sentences.flatten = doc.sentences.flatten ++ rows := by
  rw [closeSentence]
  split
  next none => rw [List.isEmpty_iff.mp none, List.append_nil]
  next => rw [List.flatten_append, List.flatten_singleton]

/-- A line that begins no document loses nothing. -/
theorem words_readLine {f f' : ColumnFile} {n : Nat} {line : String} (inner : ¬BeginsDocument line)
    (read : f.readLine n (ColumnLine.ofString line) = .ok f') :
    f'.words = f.words ++ lineWord line := by
  unfold lineWord
  cases kind : ColumnLine.ofString line with
  | blank =>
    rw [kind, readLine_blank] at read
    cases read
    rw [List.append_nil, words, words]
    cases f.pending? with
    | none => rfl
    | some doc =>
      simp only [Option.map_some, Option.toList_some, List.flatMap_singleton,
        flatten_closeSentence, List.map_append, Option.isSome_some, if_true, List.map_nil,
        List.append_nil, List.append_assoc]
  | begins id => exact absurd ⟨id, kind⟩ inner
  | ends =>
    rw [kind] at read
    obtain ⟨doc, built, open?, each, rfl⟩ := readLine_ends_eq_ok_iff.mp read
    rw [words, words, open?, List.flatMap_append]
    simp [map_word_of_readSentences each, flatten_closeSentence]
  | row fields =>
    rw [kind] at read
    obtain ⟨begun, enough, rfl⟩ := readLine_row_eq_ok_iff.mp read
    rw [words, List.map_append, ← List.append_assoc]
    rfl

theorem words_readFrom {f f' : ColumnFile} {n : Nat} {lines : List String}
    (inner : ∀ line ∈ lines, ¬BeginsDocument line) (read : f.readFrom n lines = .ok f') :
    f'.words = f.words ++ lines.flatMap lineWord := by
  induction lines generalizing f n with
  | nil =>
    cases read
    exact (List.append_nil _).symm
  | cons line lines ih =>
    obtain ⟨first, others⟩ := List.forall_mem_cons.mp inner
    obtain ⟨next, here, rest⟩ := readFrom_cons_eq_ok_iff.mp read
    rw [ih others rest, words_readLine first here, List.append_assoc, List.flatMap_cons]

/-! ## Where sentences come from -/

/-- A file in which all token lines satisfy `p`, those of the documents that are finished too. -/
structure MadeOf (p : TokenRow → Prop) (file : ColumnFile) : Prop where
  rows : ∀ row ∈ file.rows, p row
  pending : ∀ doc, file.pending? = some doc → ∀ rows ∈ doc.sentences, ∀ row ∈ rows, p row
  finished : ∀ built ∈ file.finished, ∀ s ∈ built.1.sentences,
    ∃ rows gold, readRows rows = .ok (s, gold) ∧ ∀ row ∈ rows, p row

theorem MadeOf.closeSentence {p : TokenRow → Prop} {file : ColumnFile} (madeOf : file.MadeOf p)
    {doc : PendingDocument} (open? : file.pending? = some doc) :
    ∀ rows ∈ (ColumnFile.closeSentence doc file.rows).sentences, ∀ row ∈ rows, p row := by
  rw [ColumnFile.closeSentence]
  split
  next => exact madeOf.pending doc open?
  next =>
    exact List.forall_mem_append.mpr
      ⟨madeOf.pending doc open?, List.forall_mem_singleton.mpr madeOf.rows⟩

theorem MadeOf.readLine {p : TokenRow → Prop} {file file' : ColumnFile} {n : Nat}
    {line : ColumnLine} (madeOf : file.MadeOf p)
    (holds : ∀ fields, line = .row fields → TokenRow.leastFields ≤ fields.length → p ⟨n, fields⟩)
    (read : file.readLine n line = .ok file') : file'.MadeOf p := by
  cases line with
  | blank =>
    rw [readLine_blank] at read
    cases read
    refine ⟨fun row mem => ?_, fun doc open? => ?_, madeOf.finished⟩
    · dsimp only at mem
      split at mem
      next => cases mem
      next => exact madeOf.rows row mem
    · obtain ⟨doc', open'?, rfl⟩ := Option.map_eq_some_iff.mp open?
      exact madeOf.closeSentence open'?
  | begins id =>
    cases read
    refine ⟨madeOf.rows, ?_, madeOf.finished⟩
    rintro _ ⟨⟩ rows mem
    cases mem
  | ends =>
    obtain ⟨doc, built, open?, each, rfl⟩ := readLine_ends_eq_ok_iff.mp read
    refine ⟨fun _ mem => absurd mem List.not_mem_nil,
      fun _ shut => absurd shut.symm (Option.some_ne_none _), ?_⟩
    refine List.forall_mem_append.mpr ⟨madeOf.finished, List.forall_mem_singleton.mpr ?_⟩
    intro s inside
    obtain ⟨rows, listed, gold, here⟩ := exists_readRows_of_readSentences each inside
    exact ⟨rows, gold, here, madeOf.closeSentence open? rows listed⟩
  | row fields =>
    obtain ⟨-, enough, rfl⟩ := readLine_row_eq_ok_iff.mp read
    refine ⟨?_, madeOf.pending, madeOf.finished⟩
    exact List.forall_mem_append.mpr
      ⟨madeOf.rows, List.forall_mem_singleton.mpr (holds fields rfl enough)⟩

theorem MadeOf.readFrom {p : TokenRow → Prop} {file file' : ColumnFile} {n : Nat}
    {lines : List String} (madeOf : file.MadeOf p)
    (holds : ∀ line ∈ lines, ∀ fields m, ColumnLine.ofString line = .row fields →
      TokenRow.leastFields ≤ fields.length → p ⟨m, fields⟩)
    (read : file.readFrom n lines = .ok file') : file'.MadeOf p := by
  induction lines generalizing file n with
  | nil =>
    cases read
    exact madeOf
  | cons line lines ih =>
    obtain ⟨first, others⟩ := List.forall_mem_cons.mp holds
    obtain ⟨next, here, rest⟩ := readFrom_cons_eq_ok_iff.mp read
    exact ih (madeOf.readLine (fun fields => first fields n) here) others rest

end ColumnFile

/-! ## Whole files -/

/-- The documents of a row of lines. -/
def readColumnLines (lines : List String) : Except ReadError (List (Document × RawMentions)) := do
  let file ← ColumnFile.readFrom {} 1 lines
  if file.pending?.isSome then .error (.invalid "Unterminated document at end of input")
  else return file.finished

theorem readColumnFile_eq (text : String) :
    readColumnFile text = readColumnLines (Text.lines text) := rfl

theorem readColumnLines_eq_ok_iff {lines : List String} {docs : List (Document × RawMentions)} :
    readColumnLines lines = .ok docs ↔
      ∃ file, ColumnFile.readFrom {} 1 lines = .ok file ∧ file.pending? = none ∧
        file.finished = docs := by
  rw [readColumnLines, bind_eq_ok_iff]
  refine exists_congr fun file => and_congr_right fun _ => ?_
  cases file.pending? with
  | none => simp [pure, Except.pure]
  | some doc => simp

end Discourse
