import Discourse.Proofs.Address
/-!
# Locating tokens

The number of a token and its place in a sentence determine each other, and both lead to the same
token and the same text (`Addressed`).  Sentences may be empty, so that several start at one number.

A token can be located by the offsets of the sentences alone: it lies in the last sentence that does
not start behind it.  The offsets go down nowhere, and so that sentence is found by halving
(`partitionPoint`); where empty sentences share its offset, the last one is the one with tokens, if
any of them has some (`locate?_eq_searchAddress?`).
-/

namespace Discourse

/-- The first of the numbers from `low` up to `high` at which a test fails, found by halving, if it
holds of no number behind one at which it fails. -/
def partitionPoint (p : Nat → Bool) (low high : Nat) : Nat :=
  if low < high then
    let middle := (low + high) / 2
    if p middle then partitionPoint p (middle + 1) high else partitionPoint p low middle
  else low
termination_by high - low

theorem partitionPoint_splits {p : Nat → Bool} {low high : Nat} (order : low ≤ high)
    (initial : ∀ i j, i ≤ j → j < high → p j = true → p i = true) :
    low ≤ partitionPoint p low high ∧ partitionPoint p low high ≤ high ∧
      (∀ i, low ≤ i → i < partitionPoint p low high → p i = true) ∧
      ∀ i, partitionPoint p low high ≤ i → i < high → p i = false := by
  fun_induction partitionPoint p low high with
  | case1 low high before middle holds ih =>
    obtain ⟨above, below, front, back⟩ := ih (by omega) initial
    refine ⟨by omega, below, fun i behind ahead => ?_, back⟩
    rcases Nat.lt_or_ge middle i with later | earlier
    · exact front i later ahead
    · exact initial i middle earlier (by omega) holds
  | case2 low high before middle fails ih =>
    have shorter : ∀ i j, i ≤ j → j < middle → p j = true → p i = true :=
      fun i j le lt => initial i j le (by omega)
    obtain ⟨above, below, front, back⟩ := ih (by omega) shorter
    refine ⟨above, by omega, front, fun i behind ahead => ?_⟩
    rcases Nat.lt_or_ge i middle with earlier | later
    · exact back i behind earlier
    · exact eq_false_of_ne_true fun holds => fails (initial middle i later ahead holds)
  | case3 low high empty =>
    exact ⟨Nat.le_refl low, by omega, fun i behind ahead => absurd ahead (by omega),
      fun i behind ahead => absurd ahead (by omega)⟩

namespace Document

variable {doc : Document} {i j token : Nat} {s : Sentence}

/-! ## The search by offsets -/

/-- The offsets of a row of sentences that starts at number `first`. -/
def offsetsFrom (first : Nat) : List Sentence → List Nat
  | [] => []
  | s :: rest => first :: offsetsFrom (first + s.length) rest

/-- The offsets of the sentences. -/
def offsets (doc : Document) : List Nat := offsetsFrom 0 doc.sentences

/-- Whether a sentence does not start behind a token. -/
def startsBy (doc : Document) (token i : Nat) : Bool := decide (doc.offsets.getD i 0 ≤ token)

/-- The sentence and place of a token, where the sentence is the last one that does not start behind
the token. -/
def searchAddress? (doc : Document) (token : Nat) : Option Position :=
  match partitionPoint (doc.startsBy token) 0 doc.sentences.length with
  | 0 => none
  | i + 1 =>
    let place := token - doc.offsets.getD i 0
    if (doc.sentences[i]?).any fun s => decide (place < s.length) then some (i, place) else none

theorem getElem?_offsetsFrom (first : Nat) (ss : List Sentence) (i : Nat) :
    (offsetsFrom first ss)[i]? = (ss[i]?).map fun _ => first + tokensIn (ss.take i) := by
  induction ss generalizing first i with
  | nil => rfl
  | cons s rest ih =>
    cases i with
    | zero => rfl
    | succ i =>
      rw [offsetsFrom, List.getElem?_cons_succ, List.getElem?_cons_succ, ih, List.take_succ_cons,
        tokensIn, Nat.add_assoc]

theorem getD_offsets (inside : i < doc.sentences.length) : doc.offsets.getD i 0 = doc.offset i := by
  rw [List.getD_eq_getElem?_getD, offsets, getElem?_offsetsFrom, List.getElem?_eq_getElem inside,
    Option.map_some, Option.getD_some, Nat.zero_add, offset]

theorem offset_le_offset (le : i ≤ j) (inside : j < doc.sentences.length) :
    doc.offset i ≤ doc.offset j := by
  rcases Nat.eq_or_lt_of_le le with rfl | earlier
  · exact Nat.le_refl _
  · have here := List.getElem?_eq_getElem (Nat.lt_trans earlier inside)
    have apart := offset_add_length_le_offset here earlier
    omega

theorem startsBy_iff (inside : i < doc.sentences.length) :
    doc.startsBy token i = true ↔ doc.offset i ≤ token := by
  rw [startsBy, getD_offsets inside, decide_eq_true_iff]

/-- The sentences that do not start behind a token are the first ones. -/
theorem startsBy_of_le (token : Nat) : ∀ i j, i ≤ j → j < doc.sentences.length →
    doc.startsBy token j = true → doc.startsBy token i = true := by
  intro i j le inside starts
  have order := offset_le_offset le inside
  rw [startsBy_iff inside] at starts
  rw [startsBy_iff (Nat.lt_of_le_of_lt le inside)]
  exact Nat.le_trans order starts

/-- The last one of them is the sentence of the token. -/
theorem IsAddress.partitionPoint_eq (address : doc.IsAddress i j token) :
    partitionPoint (doc.startsBy token) 0 doc.sentences.length = i + 1 := by
  obtain ⟨-, most, front, back⟩ :=
    partitionPoint_splits (Nat.zero_le doc.sentences.length) (startsBy_of_le token)
  obtain ⟨s, here, place, sum⟩ := address
  have counted := (List.getElem?_eq_some_iff.mp here).1
  generalize partitionPoint (doc.startsBy token) 0 doc.sentences.length = point at most front back ⊢
  rcases Nat.lt_trichotomy point (i + 1) with short | same | long
  · have fails := back i (Nat.le_of_lt_succ short) counted
    rw [(startsBy_iff counted).mpr (by omega)] at fails
    cases fails
  · exact same
  · have next : i + 1 < doc.sentences.length := Nat.lt_of_lt_of_le long most
    have starts := (startsBy_iff next).mp (front (i + 1) (Nat.zero_le _) long)
    have apart := offset_add_length_le_offset here (Nat.lt_add_one i)
    omega

/-- Halving finds the sentence of a token. -/
theorem locate?_eq_searchAddress? (doc : Document) (token : Nat) :
    doc.locate? token = doc.searchAddress? token := by
  by_cases inside : token < doc.tokenCount
  · obtain ⟨i, j, address⟩ := exists_address inside
    rw [address.locate?, searchAddress?, address.partitionPoint_eq]
    obtain ⟨s, here, place, sum⟩ := address
    have rest : token - doc.offset i = j := by omega
    dsimp only
    rw [getD_offsets (List.getElem?_eq_some_iff.mp here).1, rest, here, Option.any_some,
      decide_eq_true place, if_pos rfl]
  · have nowhere : doc.locate? token = none := by
      rw [← Option.not_isSome_iff_eq_none, locate?, locateFrom_isSome_iff]
      exact inside
    rw [nowhere, searchAddress?]
    obtain ⟨-, most, front, -⟩ :=
      partitionPoint_splits (Nat.zero_le doc.sentences.length) (startsBy_of_le token)
    generalize partitionPoint (doc.startsBy token) 0 doc.sentences.length = point at most front ⊢
    cases point with
    | zero => rfl
    | succ i =>
      -- a token behind all sentences lies in none of them
      have counted : i < doc.sentences.length := most
      have here := List.getElem?_eq_getElem counted
      have starts := (startsBy_iff counted).mp (front i (Nat.zero_le i) (Nat.lt_succ_self i))
      have ends := offset_add_length_le here
      dsimp only
      rw [getD_offsets counted, here, Option.any_some, decide_eq_false (by omega),
        if_neg Bool.false_ne_true]

/-! ## Addresses -/

/-- A place in a sentence or at its end is counted from the offset of the sentence. -/
theorem globalIndex_eq (here : doc.sentences[i]? = some s) (j : Nat) :
    doc.globalIndex i j = doc.offset i + j :=
  if_pos (List.getElem?_eq_some_iff.mp here).1

/-- The words of a stretch of a sentence in the text of the document. -/
theorem take_drop_tokens (here : doc.sentences[i]? = some s) {start stop : Nat}
    (inside : stop ≤ s.length) :
    (doc.tokens.take (doc.offset i + stop)).drop (doc.offset i + start) =
      (s.tokens.take stop).drop start := by
  obtain ⟨front, back, split, -, offset⟩ := split_sentences here
  have tokens : doc.tokens =
      front.flatMap Sentence.tokens ++ (s.tokens ++ back.flatMap Sentence.tokens) := by
    rw [Document.tokens, split, List.flatMap_append, List.flatMap_cons]
  rw [tokens, offset, ← length_flatMap_tokens, List.take_length_add_append,
    List.drop_length_add_append, List.take_append_of_le_length inside]

/-- The numbers of tokens and their places in sentences lead to each other, and to the same tokens
and texts. -/
structure Addressed (doc : Document) : Prop where
  /-- Exactly the numbers below that of all tokens are located. -/
  located (token : Nat) : (doc.locate? token).isSome ↔ token < doc.tokenCount
  /-- The search by offsets locates them, whatever sentences are empty. -/
  searched (token : Nat) : doc.locate? token = doc.searchAddress? token
  /-- A place of a sentence is found again from its number. -/
  place : ∀ (i j : Nat) (s : Sentence), doc.sentences[i]? = some s → j < s.length →
    doc.locate? (doc.globalIndex i j) = some (i, j)
  /-- A number is found again from its place. -/
  number : ∀ token i j : Nat, doc.locate? token = some (i, j) → doc.globalIndex i j = token
  token : ∀ token i j : Nat, doc.locate? token = some (i, j) →
    ∃ t, doc.tokens[token]? = some t ∧ doc.tokenAt? i j = some t
  text : ∀ (i : Nat) (s : Sentence) (start stop : Nat), doc.sentences[i]? = some s →
    start ≤ stop → stop ≤ s.length →
    doc.textBetween (doc.globalIndex i start) (doc.globalIndex i stop) = s.spanText start stop

/-- The tokens of a document are addressed by numbers and by places in sentences, whatever sentences
are empty. -/
theorem addressed (doc : Document) : doc.Addressed where
  located token := locateFrom_isSome_iff
  searched := doc.locate?_eq_searchAddress?
  place := by
    intro i j s here inside
    rw [globalIndex_eq here]
    exact IsAddress.locate? ⟨s, here, inside, rfl⟩
  number := by
    intro token i j located
    obtain ⟨s, here, inside, sum⟩ := locate?_eq_some_iff.mp located
    rw [globalIndex_eq here, sum]
  token := by
    intro token i j located
    have address := locate?_eq_some_iff.mp located
    have inside : token < doc.tokens.length := by
      rw [length_tokens]
      exact address.lt_tokenCount
    refine ⟨doc.tokens[token], List.getElem?_eq_getElem inside, ?_⟩
    rw [← address.token?]
    exact List.getElem?_eq_getElem inside
  text := by
    intro i s start stop here order inside
    rw [globalIndex_eq here, globalIndex_eq here, textBetween, take_drop_tokens here inside,
      Sentence.spanText]

/-- Empty sentences stand in front, between and behind the tokens, and `b` is found where it is. -/
example :
    let a := Token.ofWord "a" "DT"
    let b := Token.ofWord "b" "NN"
    let doc := ofSentences "" [⟨[], none, none, none, []⟩, ⟨[a, a], none, none, none, []⟩,
      ⟨[], none, none, none, []⟩, ⟨[], none, none, none, []⟩, ⟨[b], none, none, none, []⟩,
      ⟨[], none, none, none, []⟩]
    doc.offsets = [0, 0, 2, 2, 2, 3] ∧ doc.locate? 2 = some (4, 0) ∧ doc.locate? 3 = none ∧
      doc.globalIndex 4 0 = 2 :=
  ⟨rfl, rfl, rfl, rfl⟩

end Document

end Discourse
