import Discourse.Proofs.Column.LineByLine
import Discourse.Proofs.Text.Lines
/-!
# The documents of a column file

A document stands between the line that begins it and the line that ends it.  It is made of the
lines in between, and of the token lines that a document cut short in front of it has left without
the end of their sentence: the line that begins a document does not end a sentence.  So a document
is what is read from its own lines alone exactly if nothing was left over
(`readColumnFile_documents`).

What takes a document out of the file that it stands in is that a file which waits for the lines
left over goes on like the file as a whole (`readColumnLines_of_finished`).
-/

namespace Discourse

/-! ## Lines put together -/

/-- A carriage return at the end of a line makes no difference to what the line is. -/
theorem ColumnLine.ofString_withoutReturn (line : String) :
    ofString (String.ofList (Text.withoutReturn line.toList)) = ofString line := by
  rw [ofString, Text.trim_withoutReturn, String.ofList_toList, ofString]

/-- Lines that are put together are read as they stand. -/
theorem readColumnFile_intercalate {front : List String} {last : String}
    (plain : ∀ line ∈ front ++ [last], '\n' ∉ line.toList)
    (solid : ColumnLine.ofString last ≠ .blank) :
    readColumnFile ("\n".intercalate (front ++ [last])) = readColumnLines (front ++ [last]) := by
  have nonempty : last ≠ "" := by
    rintro rfl
    exact solid (by decide)
  have kinds : (Text.lines ("\n".intercalate (front ++ [last]))).map ColumnLine.ofString =
      (front ++ [last]).map ColumnLine.ofString := by
    have returns : front.map (ColumnLine.ofString ∘ fun line =>
        String.ofList (Text.withoutReturn line.toList)) = front.map ColumnLine.ofString := by
      refine List.map_congr_left fun line _ => ?_
      rw [Function.comp_apply, ColumnLine.ofString_withoutReturn]
    rw [Text.lines_intercalate plain nonempty, List.map_append, List.map_append, List.map_map,
      returns]
  rw [readColumnFile_eq, readColumnLines, ColumnFile.readFrom, kinds]
  rfl

/-! ## Where documents stand -/

/-- The place in a row where as many elements of a kind have gone by. -/
theorem exists_split_of_lt_countP {α : Type} {p : α → Bool} {xs : List α} {k : Nat}
    (lt : k < xs.countP p) :
    ∃ before x after, xs = before ++ x :: after ∧ p x = true ∧ before.countP p = k := by
  induction xs generalizing k with
  | nil => exact absurd lt (Nat.not_lt_zero k)
  | cons y rest ih =>
    rw [List.countP_cons] at lt
    by_cases here : p y = true
    · cases k with
      | zero => exact ⟨[], y, rest, rfl, here, rfl⟩
      | succ k =>
        rw [if_pos here] at lt
        obtain ⟨before, x, after, rfl, found, count⟩ := ih (Nat.lt_of_succ_lt_succ lt)
        refine ⟨y :: before, x, after, rfl, found, ?_⟩
        rw [List.countP_cons, count, if_pos here]
    · rw [if_neg here] at lt
      obtain ⟨before, x, after, rfl, found, count⟩ := ih lt
      refine ⟨y :: before, x, after, rfl, found, ?_⟩
      rw [List.countP_cons, count, if_neg here]
      rfl

/-- A row of lines in which a document stands from a line that begins it to one that ends it. -/
structure StandsIn (lines before : List String) (start : String) (own : List String)
    (stop : String) (after : List String) : Prop where
  split : lines = before ++ start :: own ++ stop :: after
  begins : BeginsDocument start
  ends : EndsDocument stop
  inner : ∀ line ∈ own, ¬BeginsDocument line ∧ ¬EndsDocument line

theorem countP_endsDocument_eq_zero {lines : List String}
    (inner : ∀ line ∈ lines, ¬EndsDocument line) : lines.countP EndsDocument = 0 :=
  List.countP_eq_zero.mpr fun line mem ends => inner line mem (of_decide_eq_true ends)

/-- Every document has been finished at some line. -/
theorem exists_finishing_line {lines : List String} {file : ColumnFile}
    (read : ColumnFile.readFrom {} 1 lines = .ok file) {k : Nat} {built : Document × RawMentions}
    (here : file.finished[k]? = some built) :
    ∃ front stop after mid, lines = front ++ stop :: after ∧ EndsDocument stop ∧
      front.countP EndsDocument = k ∧ ColumnFile.readFrom {} 1 front = .ok mid ∧
      mid.readLine (1 + front.length) .ends = .ok { finished := mid.finished ++ [built] } := by
  obtain ⟨all, finished, length⟩ := ColumnFile.finished_readFrom read
  have lt : k < lines.countP EndsDocument := by
    rw [← length]
    exact (List.getElem?_eq_some_iff.mp (finished ▸ here)).1
  obtain ⟨front, stop, after, rfl, ends, count⟩ := exists_split_of_lt_countP lt
  have kind : ColumnLine.ofString stop = .ends := of_decide_eq_true ends
  obtain ⟨mid, early, late⟩ := ColumnFile.readFrom_append_eq_ok_iff.mp read
  obtain ⟨next, stopped, rest⟩ := ColumnFile.readFrom_cons_eq_ok_iff.mp late
  rw [kind] at stopped
  obtain ⟨doc, built', open?, each, rfl⟩ := ColumnFile.readLine_ends_eq_ok_iff.mp stopped
  obtain ⟨before, soFar, number⟩ := ColumnFile.finished_readFrom early
  obtain ⟨more, grown, -⟩ := ColumnFile.finished_readFrom rest
  have place : mid.finished.length = k := by
    rw [soFar, List.length_append, number, count]
    exact Nat.zero_add k
  rw [grown, ← place] at here
  have same : built' = built := by simpa using here
  exact ⟨front, stop, after, mid, rfl, kind, count, early, same ▸ stopped⟩

/-- The lines of a document that is finished, alone but for those that were left over for it, give
the same document. -/
theorem readColumnLines_of_finished {before own : List String} {start stop : String}
    {mid : ColumnFile} {built : Document × RawMentions} (begins : BeginsDocument start)
    (ends : EndsDocument stop) (inner : ∀ line ∈ own, ¬EndsDocument line)
    (read : ColumnFile.readFrom {} 1 (before ++ start :: own) = .ok mid)
    (finishes : mid.readLine (1 + (before ++ start :: own).length) .ends =
      .ok { finished := mid.finished ++ [built] }) :
    readColumnLines (start :: unfinished before ++ own ++ [stop]) = .ok [built] := by
  obtain ⟨file, leading, read⟩ := ColumnFile.readFrom_append_eq_ok_iff.mp read
  obtain ⟨opened, first, inside⟩ := ColumnFile.readFrom_cons_eq_ok_iff.mp read
  obtain ⟨id, kind⟩ := begins
  rw [kind] at first
  cases first
  have left := ColumnFile.After.nil.readFrom leading
  -- the same with nothing in front of the document but the lines left over
  obtain ⟨alone, waiting, finished, pending, rows⟩ :=
    ColumnFile.exists_readFrom_rows (f := { pending? := some ⟨id, []⟩ }) rfl left.waiting
      left.enough 2
  have alike : ColumnFile.Alike { file with pending? := some ⟨id, []⟩ } alone :=
    ⟨by rw [pending], by rw [rows]; rfl⟩
  have ended : ColumnFile.readFrom { file with pending? := some ⟨id, []⟩ } (1 + before.length + 1)
      (own ++ [stop]) = .ok { finished := mid.finished ++ [built] } := by
    refine ColumnFile.readFrom_append_eq_ok_iff.mpr ⟨mid, inside, ?_⟩
    refine ColumnFile.readFrom_cons_eq_ok_iff.mpr ⟨_, ?_, rfl⟩
    have number : 1 + before.length + 1 + own.length = 1 + (before ++ start :: own).length := by
      rw [List.length_append, List.length_cons]
      omega
    rw [ends, number, finishes]
  obtain ⟨last, documents, run, alike, grown, gained, length⟩ :=
    alike.readFrom rfl ended (2 + (unfinished before).length)
  have single : documents = [built] := by
    rw [List.countP_append, countP_endsDocument_eq_zero inner, Nat.zero_add,
      List.countP_singleton, if_pos (decide_eq_true ends)] at length
    exact (List.append_inj' grown.symm length).2
  refine readColumnLines_eq_ok_iff.mpr ⟨last, ?_, ?_, ?_⟩
  · rw [List.cons_append, List.cons_append, List.append_assoc]
    refine ColumnFile.readFrom_cons_eq_ok_iff.mpr ⟨{ pending? := some ⟨id, []⟩ }, ?_, ?_⟩
    · rw [kind]
      rfl
    · exact ColumnFile.readFrom_append_eq_ok_iff.mpr ⟨alone, waiting, run⟩
  · have shut := alike.isSome
    exact Option.not_isSome_iff_eq_none.mp (by rw [← shut]; exact Bool.false_ne_true)
  · rw [gained, finished, single]
    rfl

/-- A document is what is read from its own lines behind those that were left over for it. -/
theorem exists_standsIn {lines : List String} {docs : List (Document × RawMentions)}
    (read : readColumnLines lines = .ok docs) {k : Nat} {built : Document × RawMentions}
    (here : docs[k]? = some built) :
    ∃ before start own stop after, StandsIn lines before start own stop after ∧
      before.countP EndsDocument = k ∧
      readColumnLines (start :: unfinished before ++ own ++ [stop]) = .ok [built] := by
  obtain ⟨file, whole, -, rfl⟩ := readColumnLines_eq_ok_iff.mp read
  obtain ⟨front, stop, after, mid, rfl, ends, count, early, finishes⟩ :=
    exists_finishing_line whole here
  obtain ⟨doc, -, open?, -, -⟩ := ColumnFile.readLine_ends_eq_ok_iff.mp finishes
  obtain ⟨before, start, own, rfl, begins, inner⟩ :=
    (ColumnFile.After.nil.readFrom early).begun (by rw [open?]; rfl)
  have unended : ∀ line ∈ own, ¬EndsDocument line := fun line mem => (inner line mem).2
  refine ⟨before, start, own, stop, after, ⟨rfl, begins, ends, inner⟩, ?_,
    readColumnLines_of_finished begins ends unended early finishes⟩
  have starts : ¬EndsDocument start := by
    obtain ⟨id, kind⟩ := begins
    exact fun ends => by cases kind.symm.trans ends
  have opening : (start :: own).countP EndsDocument = 0 :=
    countP_endsDocument_eq_zero (List.forall_mem_cons.mpr ⟨starts, unended⟩)
  rw [List.countP_append, opening] at count
  exact count

/-- The words of a document that is read from its own lines. -/
theorem map_word_of_readColumnLines {start stop : String} {inner : List String}
    {built : Document × RawMentions} (begins : BeginsDocument start) (ends : EndsDocument stop)
    (open? : ∀ line ∈ inner, ¬BeginsDocument line)
    (read : readColumnLines (start :: inner ++ [stop]) = .ok [built]) :
    built.1.tokens.map Token.word = inner.flatMap ColumnFile.lineWord := by
  obtain ⟨id, kind⟩ := begins
  obtain ⟨file, read, shut, finished⟩ := readColumnLines_eq_ok_iff.mp read
  have rows := (ColumnFile.After.nil.readFrom read).closed shut
  obtain ⟨next, first, rest⟩ := ColumnFile.readFrom_cons_eq_ok_iff.mp read
  rw [kind] at first
  cases first
  have last : ColumnFile.lineWord stop = [] := by
    rw [ColumnFile.lineWord, ends]
  have closing : ∀ line ∈ inner ++ [stop], ¬BeginsDocument line := by
    refine List.forall_mem_append.mpr ⟨open?, List.forall_mem_singleton.mpr ?_⟩
    rintro ⟨id', kind'⟩
    cases kind'.symm.trans ends
  have words := ColumnFile.words_readFrom closing rest
  rw [List.flatMap_append, List.flatMap_singleton, last, List.append_nil, ColumnFile.words,
    finished, shut, rows] at words
  simpa [ColumnFile.words] using words

namespace StandsIn

variable {lines before own after : List String} {start stop line : String}

theorem mem_of_mem_own (stands : StandsIn lines before start own stop after)
    (mem : line ∈ start :: own ++ [stop]) : line ∈ lines := by
  rw [stands.split]
  simp only [List.mem_append, List.mem_cons, List.not_mem_nil, or_false] at mem ⊢
  rcases mem with (rfl | inside) | rfl
  · exact .inl (.inr (.inl rfl))
  · exact .inl (.inr (.inr inside))
  · exact .inr (.inl rfl)

theorem mem_of_mem_behind (stands : StandsIn lines before start own stop after)
    (mem : line ∈ start :: unfinished before ++ own ++ [stop]) : line ∈ lines := by
  rcases List.mem_append.mp mem with front | last
  · rcases List.mem_append.mp front with first | inside
    · rcases List.mem_cons.mp first with rfl | left
      · exact stands.mem_of_mem_own (List.mem_append_left _ List.mem_cons_self)
      · rw [stands.split]
        exact List.mem_append_left _ (List.mem_append_left _ (mem_unfinished left).1)
    · exact stands.mem_of_mem_own (List.mem_append_left _ (List.mem_cons_of_mem _ inside))
  · exact stands.mem_of_mem_own (List.mem_append_right _ last)

/-- A line that was left over would bring one more word. -/
theorem unfinished_eq_nil (stands : StandsIn lines before start own stop after)
    {built : Document × RawMentions}
    (behind : readColumnLines (start :: unfinished before ++ own ++ [stop]) = .ok [built])
    (alone : readColumnLines (start :: own ++ [stop]) = .ok [built]) : unfinished before = [] := by
  have ownOpen : ∀ line ∈ own, ¬BeginsDocument line := fun line mem => (stands.inner line mem).1
  have allOpen : ∀ line ∈ unfinished before ++ own, ¬BeginsDocument line := by
    refine List.forall_mem_append.mpr ⟨?_, ownOpen⟩
    intro line left
    obtain ⟨-, fields, row⟩ := mem_unfinished left
    rintro ⟨id, kind⟩
    cases row.symm.trans kind
  rw [List.cons_append] at behind
  have more := map_word_of_readColumnLines stands.begins stands.ends allOpen behind
  have less := map_word_of_readColumnLines stands.begins stands.ends ownOpen alone
  rw [less, List.flatMap_append, List.self_eq_append_left, List.flatMap_eq_nil_iff] at more
  refine List.eq_nil_iff_forall_not_mem.mpr fun line left => ?_
  obtain ⟨-, fields, row⟩ := mem_unfinished left
  have word := more line left
  rw [ColumnFile.lineWord, row] at word
  cases word

end StandsIn

/-- A document stands between two lines of the text for each line that ends one, and is what its own
lines alone are read as exactly if no token line was left over in front of it. -/
theorem readColumnFile_documents {text : String} {docs : List (Document × RawMentions)}
    (read : readColumnFile text = .ok docs) :
    docs.length = (Text.lines text).countP EndsDocument ∧
      ∀ (k : Nat) (built : Document × RawMentions), docs[k]? = some built →
        ∃ before start own stop after,
          StandsIn (Text.lines text) before start own stop after ∧
          before.countP EndsDocument = k ∧
          readColumnFile ("\n".intercalate (start :: unfinished before ++ own ++ [stop])) =
            .ok [built] ∧
          (readColumnFile ("\n".intercalate (start :: own ++ [stop])) = .ok [built] ↔
            unfinished before = []) := by
  rw [readColumnFile_eq] at read
  constructor
  · obtain ⟨file, whole, -, rfl⟩ := readColumnLines_eq_ok_iff.mp read
    obtain ⟨built, finished, length⟩ := ColumnFile.finished_readFrom whole
    rw [finished, ← length]
    rfl
  intro k built here
  obtain ⟨before, start, own, stop, after, stands, count, alone⟩ := exists_standsIn read here
  have solid : ColumnLine.ofString stop ≠ .blank := by
    rw [stands.ends]
    exact ColumnLine.noConfusion
  have behind := readColumnFile_intercalate (fun line mem =>
    Text.not_mem_of_mem_lines (stands.mem_of_mem_behind mem)) solid
  have own' := readColumnFile_intercalate (fun line mem =>
    Text.not_mem_of_mem_lines (stands.mem_of_mem_own mem)) solid
  refine ⟨before, start, own, stop, after, stands, count, behind.trans alone, ?_⟩
  rw [own']
  constructor
  · intro same
    exact stands.unfinished_eq_nil alone same
  · intro none
    rw [none] at alone
    exact alone

/-- The third document is read with the token line of the second, which is cut short. -/
theorem readColumnFile_documents_cut_short :
    let text := "\n".intercalate ["#begin document a", "a 0 0 Hi UH (TOP*) - - - - * -",
      "#end document", "#begin document b", "b 0 0 No UH (TOP* - - - - * -",
      "#begin document c", "c 0 0 way NN *) - - - - * -", "#end document"]
    ∃ docs built, readColumnFile text = .ok docs ∧ docs[1]? = some built ∧
      docs.length = (Text.lines text).countP EndsDocument ∧
      ∃ before start own stop after,
        StandsIn (Text.lines text) before start own stop after ∧
        before.countP EndsDocument = 1 ∧
        readColumnFile ("\n".intercalate (start :: unfinished before ++ own ++ [stop])) =
          .ok [built] ∧
        (readColumnFile ("\n".intercalate (start :: own ++ [stop])) = .ok [built] ↔
          unfinished before = []) := by
  intro text
  have read : (readColumnFile text).map (fun docs => docs.map fun built => built.1.id) =
      .ok ["a", "c"] := by
    decide +kernel
  obtain ⟨docs, read, ids⟩ := map_eq_ok_iff.mp read
  obtain ⟨length, each⟩ := readColumnFile_documents read
  have second : docs[1]?.map (fun built => built.1.id) = some "c" := by
    rw [← List.getElem?_map, ids]
    rfl
  obtain ⟨built, here, -⟩ := Option.map_eq_some_iff.mp second
  exact ⟨docs, built, read, here, length, each 1 built here⟩

/-- A document with one token line comes out with two sentences. -/
theorem readColumnFile_left_over :
    let own := ["#begin document b", "", "b 0 0 own NN (TOP*) - - - - * -", "#end document"]
    let text := "#begin document a" :: "a 0 0 left NN (TOP*) - - - - * -" :: own
    ∃ built alone, readColumnFile ("\n".intercalate text) = .ok [built] ∧
      readColumnFile ("\n".intercalate own) = .ok [alone] ∧
      built.1.id = alone.1.id ∧ built.1.tokens.map Token.word = ["left", "own"] ∧
      alone.1.tokens.map Token.word = ["own"] := by
  intro own text
  have read : (readColumnFile ("\n".intercalate text)).map (fun docs => docs.map fun built =>
      (built.1.id, built.1.tokens.map Token.word)) = .ok [("b", ["left", "own"])] := by
    decide +kernel
  have readOwn : (readColumnFile ("\n".intercalate own)).map (fun docs => docs.map fun built =>
      (built.1.id, built.1.tokens.map Token.word)) = .ok [("b", ["own"])] := by
    decide +kernel
  obtain ⟨docs, read, shown⟩ := map_eq_ok_iff.mp read
  obtain ⟨docs', readOwn, shown'⟩ := map_eq_ok_iff.mp readOwn
  obtain ⟨built, rfl⟩ := List.length_eq_one_iff.mp (by simpa using congrArg List.length shown)
  obtain ⟨alone, rfl⟩ := List.length_eq_one_iff.mp (by simpa using congrArg List.length shown')
  obtain ⟨id, words⟩ := Prod.mk.inj (List.cons.inj shown).1
  obtain ⟨id', words'⟩ := Prod.mk.inj (List.cons.inj shown').1
  exact ⟨built, alone, read, readOwn, id.trans id'.symm, words, words'⟩

end Discourse
