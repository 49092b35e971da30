import Discourse.Document
/-!
# The two addresses of a token

The number of a token in the document and its place in a sentence lead to each other.  The sentences
lie behind one another: the tokens of one are numbered from its offset on (`Document.IsAddress`), and a
number inside the document is located at its only address (`Document.locate?_eq_some_iff`).
-/

namespace Discourse

/-- The length of a sentence and its dependencies: what there is of it apart from the tags and marks
of its tokens. -/
def Sentence.frame (s : Sentence) : Nat × Option DependencyGraph := (s.length, s.dependencies?)

namespace Document

variable {doc : Document} {i j token : Nat} {s : Sentence}

theorem length_flatMap_tokens (sentences : List Sentence) :
    (sentences.flatMap Sentence.tokens).length = tokensIn sentences := by
  induction sentences with
  | nil => rfl
  | cons s rest ih =>
    rw [List.flatMap_cons, List.length_append, ih]
    rfl

theorem length_tokens (doc : Document) : doc.tokens.length = doc.tokenCount :=
  length_flatMap_tokens doc.sentences

theorem tokensIn_append (front back : List Sentence) :
    tokensIn (front ++ back) = tokensIn front + tokensIn back := by
  induction front with
  | nil => rw [List.nil_append, tokensIn, Nat.zero_add]
  | cons s rest ih => rw [List.cons_append, tokensIn, tokensIn, ih, Nat.add_assoc]

/-- Where a sentence starts is a matter of the lengths of those before it. -/
theorem offset_congr {d : Document}
    (same : d.sentences.map Sentence.frame = doc.sentences.map Sentence.frame) (i : Nat) :
    d.offset i = doc.offset i := by
  have counts (sentences : List Sentence) :
      tokensIn sentences = ((sentences.map Sentence.frame).map Prod.fst).sum := by
    induction sentences with
    | nil => rfl
    | cons s rest ih =>
      rw [tokensIn, ih]
      rfl
  rw [Document.offset, Document.offset, counts, counts, List.map_take, same, ← List.map_take]

theorem map_frame_dealTokens {sentences : List Sentence} {tokens : List Token}
    (length : tokens.length = tokensIn sentences) :
    (dealTokens sentences tokens).map Sentence.frame = sentences.map Sentence.frame := by
  induction sentences generalizing tokens with
  | nil => rfl
  | cons s rest ih =>
    rw [tokensIn] at length
    have first : ({ s with tokens := tokens.take s.length } : Sentence).frame = s.frame :=
      Prod.ext (List.length_take_of_le (by omega)) rfl
    rw [dealTokens, List.map_cons, List.map_cons, first, ih]
    rw [List.length_drop]
    omega

/-- A document around one of its sentences. -/
theorem split_sentences (here : doc.sentences[i]? = some s) :
    ∃ front back, doc.sentences = front ++ s :: back ∧ front.length = i ∧
      doc.offset i = tokensIn front := by
  obtain ⟨inside, rfl⟩ := List.getElem?_eq_some_iff.mp here
  refine ⟨doc.sentences.take i, doc.sentences.drop (i + 1), ?_, ?_, rfl⟩
  · rw [List.getElem_cons_drop, List.take_append_drop]
  · exact List.length_take_of_le (Nat.le_of_lt inside)

/-- A sentence ends inside the document. -/
theorem offset_add_length_le (here : doc.sentences[i]? = some s) :
    doc.offset i + s.length ≤ doc.tokenCount := by
  obtain ⟨front, back, split, -, offset⟩ := split_sentences here
  rw [tokenCount, split, tokensIn_append, tokensIn, offset]
  omega

/-- A sentence ends before the next one starts. -/
theorem offset_add_length_le_offset (here : doc.sentences[i]? = some s) (later : i < j) :
    doc.offset i + s.length ≤ doc.offset j := by
  obtain ⟨front, back, split, length, offset⟩ := split_sentences here
  rw [offset, Document.offset, split, List.take_append, tokensIn_append,
    List.take_of_length_le (by omega), show j - front.length = (j - front.length - 1) + 1 by omega,
    List.take_succ_cons, tokensIn]
  omega

/-- The token with a number stands at a place of a sentence. -/
def IsAddress (doc : Document) (i j token : Nat) : Prop :=
  ∃ s, doc.sentences[i]? = some s ∧ j < s.length ∧ doc.offset i + j = token

theorem locateFrom_isSome_iff {first token : Nat} {ss : List Sentence} :
    (locateFrom first ss token).isSome ↔ token < tokensIn ss := by
  induction ss generalizing first token with
  | nil => simp [locateFrom, tokensIn]
  | cons s rest ih =>
    rw [locateFrom, tokensIn]
    split
    next here =>
      simp only [Option.isSome_some, true_iff]
      omega
    next beyond =>
      rw [ih]
      omega

theorem locateFrom_append {first : Nat} {front : List Sentence} {back : List Sentence} :
    locateFrom first (front ++ back) (tokensIn front + token) =
      locateFrom (first + front.length) back token := by
  induction front generalizing first with
  | nil => simp [tokensIn]
  | cons s rest ih =>
    have shift : s.length + tokensIn rest + token - s.length = tokensIn rest + token := by omega
    rw [List.cons_append, tokensIn, locateFrom, if_neg (by omega), shift, ih, List.length_cons]
    congr 1
    omega

theorem IsAddress.lt_tokenCount (address : doc.IsAddress i j token) : token < doc.tokenCount := by
  obtain ⟨s, here, inside, rfl⟩ := address
  have within := offset_add_length_le here
  omega

theorem IsAddress.locate? (address : doc.IsAddress i j token) : doc.locate? token = some (i, j) := by
  obtain ⟨s, here, inside, rfl⟩ := address
  obtain ⟨front, back, split, rfl, offset⟩ := split_sentences here
  rw [Document.locate?, split, offset, locateFrom_append, locateFrom, if_pos inside, Nat.zero_add]

theorem IsAddress.token? (address : doc.IsAddress i j token) :
    doc.token? token = doc.tokenAt? i j := by
  obtain ⟨s, here, inside, rfl⟩ := address
  obtain ⟨front, back, split, -, offset⟩ := split_sentences here
  rw [tokenAt?, here, Option.bind_some, Document.token?, tokens, split, offset, List.flatMap_append,
    List.flatMap_cons, ← length_flatMap_tokens, List.getElem?_append_right (Nat.le_add_right ..),
    Nat.add_sub_cancel_left, List.getElem?_append_left inside]

/-- A number below that of all tokens of a row of sentences falls into one of them. -/
theorem exists_split_of_lt_tokensIn {ss : List Sentence} (inside : token < tokensIn ss) :
    ∃ front s back, ss = front ++ s :: back ∧ tokensIn front ≤ token ∧
      token < tokensIn front + s.length := by
  induction ss generalizing token with
  | nil => exact absurd inside (Nat.not_lt_zero token)
  | cons s rest ih =>
    rw [tokensIn] at inside
    by_cases here : token < s.length
    · exact ⟨[], s, rest, rfl, Nat.zero_le token, by rwa [tokensIn, Nat.zero_add]⟩
    · obtain ⟨front, s', back, rfl, begins, ends⟩ := @ih (token - s.length) (by omega)
      exact ⟨s :: front, s', back, rfl, by rw [tokensIn]; omega, by rw [tokensIn]; omega⟩

/-- Every token of the document stands in a sentence. -/
theorem exists_address (inside : token < doc.tokenCount) : ∃ i j, doc.IsAddress i j token := by
  obtain ⟨front, s, back, split, begins, ends⟩ := exists_split_of_lt_tokensIn inside
  have here : doc.sentences[front.length]? = some s := by
    rw [split, List.getElem?_append_right (Nat.le_refl _), Nat.sub_self]
    rfl
  have offset : doc.offset front.length = tokensIn front := by
    rw [Document.offset, split, List.take_left]
  exact ⟨front.length, token - tokensIn front, s, here, by omega, by omega⟩

theorem locate?_eq_some_iff : doc.locate? token = some (i, j) ↔ doc.IsAddress i j token := by
  refine ⟨fun located => ?_, IsAddress.locate?⟩
  obtain ⟨i', j', address⟩ := exists_address (locateFrom_isSome_iff.mp (Option.isSome_of_mem located))
  have same := address.locate?
  rw [located] at same
  cases same
  exact address

end Document

end Discourse
