import Discourse.Text.Blank
import Discourse.Text.Case
/-!
# Words of a text

A blank character parts the words before it from those behind it (`wordChars_append_blank`).  So
words written with single spaces between them are found again (`wordChars_intercalate`), and nothing
else is ever found as a word (`isWord_of_mem_wordChars`).  A text with single spaces has the words
that it had before (`words_squeeze`), so that putting single spaces a second time changes nothing.
-/

namespace Discourse.Text

/-- A row of characters that is found as one word. -/
structure IsWord (word : List Char) : Prop where
  nonempty : word ≠ []
  solid : ∀ c ∈ word, isBlank c = false

section ConsWord

variable {c : Char} {row : List (List Char)} {joined : Bool}

theorem consWord_blank (blank : isBlank c = true) : consWord c (row, joined) = (row, false) := by
  unfold consWord
  dsimp only
  rw [if_pos blank]

/-- A character that is not blank starts a word, unless a word starts right behind it. -/
theorem consWord_apart (solid : isBlank c = false) :
    consWord c (row, false) = ([c] :: row, true) := by
  unfold consWord
  dsimp only
  rw [solid]
  cases row <;> rfl

theorem consWord_joined (solid : isBlank c = false) (word : List Char) :
    consWord c (word :: row, true) = ((c :: word) :: row, true) := by
  unfold consWord
  dsimp only
  rw [solid]
  rfl

/-- Where the words of a row come from. -/
theorem mem_consWord {word : List Char} (mem : word ∈ (consWord c (row, joined)).1) :
    word ∈ row ∨ isBlank c = false ∧ ∃ tail, word = c :: tail ∧ (tail = [] ∨ tail ∈ row) := by
  unfold consWord at mem
  dsimp only at mem
  split at mem
  next => exact .inl mem
  next blank =>
    have solid : isBlank c = false := Bool.eq_false_iff.mpr blank
    split at mem
    next tail rest =>
      rcases List.mem_cons.mp mem with rfl | old
      · exact .inr ⟨solid, tail, rfl, .inr List.mem_cons_self⟩
      · exact .inl (List.mem_cons_of_mem tail old)
    next =>
      rcases List.mem_cons.mp mem with rfl | old
      · exact .inr ⟨solid, [], rfl, .inl rfl⟩
      · exact .inl old

end ConsWord

theorem isWord_of_mem_wordChars {cs word : List Char} (mem : word ∈ wordChars cs) :
    IsWord word := by
  rw [wordChars] at mem
  induction cs generalizing word with
  | nil => cases mem
  | cons c rest ih =>
    rcases mem_consWord mem with old | ⟨solid, tail, rfl, rfl | old⟩
    · exact ih old
    · exact ⟨List.cons_ne_nil c [], List.forall_mem_singleton.mpr solid⟩
    · exact ⟨List.cons_ne_nil c tail, List.forall_mem_cons.mpr ⟨solid, (ih old).solid⟩⟩

theorem isWord_of_mem_words {text w : String} (mem : w ∈ words text) : IsWord w.toList := by
  obtain ⟨cs, found, rfl⟩ := List.mem_map.mp mem
  rw [String.toList_ofList]
  exact isWord_of_mem_wordChars found

theorem IsWord.foldr_consWord {word : List Char} (isWord : IsWord word)
    (row : List (List Char)) : word.foldr consWord (row, false) = (word :: row, true) := by
  obtain ⟨nonempty, solid⟩ := isWord
  induction word with
  | nil => exact absurd rfl nonempty
  | cons c rest ih =>
    obtain ⟨solid_c, solid_rest⟩ := List.forall_mem_cons.mp solid
    cases rest with
    | nil => exact consWord_apart solid_c
    | cons d rest =>
      rw [List.foldr_cons, ih (List.cons_ne_nil d rest) solid_rest]
      exact consWord_joined solid_c (d :: rest)

/-- Where a word starts right away there is a word. -/
theorem ne_nil_of_foldr_consWord {cs : List Char}
    (joined : (cs.foldr consWord ([], false)).2 = true) :
    (cs.foldr consWord ([], false)).1 ≠ [] := by
  induction cs with
  | nil => cases joined
  | cons c rest ih =>
    rw [List.foldr_cons] at joined ⊢
    generalize rest.foldr consWord ([], false) = found at joined ih ⊢
    obtain ⟨words, behind⟩ := found
    cases blank : isBlank c with
    | true =>
      rw [consWord_blank blank] at joined
      cases joined
    | false =>
      cases behind with
      | false =>
        rw [consWord_apart blank]
        exact List.cons_ne_nil _ _
      | true =>
        obtain ⟨word, others, rfl⟩ := List.exists_cons_of_ne_nil (ih rfl)
        rw [consWord_joined blank]
        exact List.cons_ne_nil _ _

/-- Words found in front of others that do not start right there. -/
theorem foldr_consWord_apart (cs : List Char) (row : List (List Char)) :
    cs.foldr consWord (row, false) =
      (wordChars cs ++ row, (cs.foldr consWord ([], false)).2) := by
  induction cs with
  | nil => rfl
  | cons c rest ih =>
    have starts := @ne_nil_of_foldr_consWord rest
    rw [List.foldr_cons, ih, wordChars, wordChars, List.foldr_cons]
    generalize rest.foldr consWord ([], false) = found at starts ⊢
    obtain ⟨words, joined⟩ := found
    cases blank : isBlank c with
    | true => rw [consWord_blank blank, consWord_blank blank]
    | false =>
      cases joined with
      | false => rw [consWord_apart blank, consWord_apart blank, List.cons_append]
      | true =>
        obtain ⟨word, others, rfl⟩ := List.exists_cons_of_ne_nil (starts rfl)
        rw [List.cons_append, consWord_joined blank, consWord_joined blank, List.cons_append]

/-- A blank character parts the words before it from those behind it. -/
theorem wordChars_append_blank {c : Char} (blank : isBlank c = true) (front back : List Char) :
    wordChars (front ++ c :: back) = wordChars front ++ wordChars back := by
  rw [wordChars, List.foldr_append, List.foldr_cons, ← Prod.eta (back.foldr consWord ([], false)),
    consWord_blank blank, foldr_consWord_apart]
  rfl

/-- Words with single spaces between them are found again. -/
theorem wordChars_intercalate {row : List (List Char)} (isWord : ∀ word ∈ row, IsWord word) :
    wordChars ([' '].intercalate row) = row := by
  induction row with
  | nil => rfl
  | cons word rest ih =>
    obtain ⟨first, others⟩ := List.forall_mem_cons.mp isWord
    have single : wordChars word = [word] := by
      rw [wordChars, first.foldr_consWord]
    cases rest with
    | nil => rw [List.intercalate_singleton, single]
    | cons next rest =>
      rw [List.intercalate_cons_cons, List.append_assoc, List.singleton_append,
        wordChars_append_blank (by decide), ih others, single]
      rfl

/-- The words of texts with a blank character between them. -/
theorem words_intercalate {c : Char} (blank : isBlank c = true) (texts : List String) :
    words ((String.singleton c).intercalate texts) = texts.flatMap words := by
  induction texts with
  | nil => rfl
  | cons text rest ih =>
    cases rest with
    | nil => rw [String.intercalate_singleton, List.flatMap_cons, List.flatMap_nil, List.append_nil]
    | cons next others =>
      rw [String.intercalate_cons_cons, List.flatMap_cons, ← ih, words, String.toList_append,
        String.toList_append, String.toList_singleton, List.append_assoc, List.singleton_append,
        wordChars_append_blank blank, List.map_append, words, words]

theorem words_squeeze (s : String) : words (squeeze s) = words s := by
  have back : (words s).map String.toList = wordChars s.toList := by
    rw [words, List.map_map]
    exact (List.map_congr_left fun _ _ => String.toList_ofList).trans (List.map_id _)
  have spaced : (squeeze s).toList = [' '].intercalate (wordChars s.toList) := by
    rw [squeeze, String.toList_intercalate, back]
    rfl
  rw [words, spaced, wordChars_intercalate fun _ => isWord_of_mem_wordChars, words]

theorem squeeze_squeeze (s : String) : squeeze (squeeze s) = squeeze s := by
  rw [squeeze, words_squeeze, squeeze]

theorem equalFold_refl (s : String) : equalFold s s = true := beq_self_eq_true _

end Discourse.Text
