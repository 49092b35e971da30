import Discourse.Proofs.Attribution.Majority
import Discourse.Proofs.Attribution.Tally
/-!
# Character mentions lie apart

Names come from entity mentions and single tokens are added where no mention is yet, so that if no
two names overlap no two character mentions do (`Disjoint.addTokenMention`).  Sorted they lie one
behind the other, and a token then settles which mention starts with it, ends in front of it or
covers it (`Context.Unambiguous`).  The entity mentions that tags make are runs of tags and do not
overlap.

Every name is counted for one character, so that the counts add up to the names
(`Context.sum_frequencies`).
-/

namespace Discourse

/-- What at most one member of a row satisfies is found wherever it stands. -/
theorem find?_eq_some_iff_of_only {α : Type} {row : List α} {p : α → Bool}
    (only : ∀ a ∈ row, ∀ b ∈ row, p a = true → p b = true → a = b) {a : α} :
    row.find? p = some a ↔ a ∈ row ∧ p a = true := by
  constructor
  · intro found
    exact ⟨List.mem_of_find?_eq_some found, List.find?_some found⟩
  · rintro ⟨mem, holds⟩
    obtain ⟨b, found⟩ := Option.isSome_iff_exists.mp (List.find?_isSome.mpr ⟨a, mem, holds⟩)
    have same := only a mem b (List.mem_of_find?_eq_some found) holds (List.find?_some found)
    rw [found, same]

namespace CharacterMention

variable {m m' : CharacterMention} {row : List CharacterMention} {token : Nat}

/-- One of two mentions ends before the other begins. -/
def Apart (m m' : CharacterMention) : Prop :=
  m.tokenEnd ≤ m'.tokenBegin ∨ m'.tokenEnd ≤ m.tokenBegin

theorem Apart.symm (apart : Apart m m') : Apart m' m := Or.symm apart

theorem covers_iff : m.covers token = true ↔ m.tokenBegin ≤ token ∧ token < m.tokenEnd := by
  rw [covers, Bool.and_eq_true, decide_eq_true_iff, decide_eq_true_iff]

theorem isNotAfter_iff : m.isNotAfter m' = true ↔
    m.tokenBegin < m'.tokenBegin ∨ m.tokenBegin = m'.tokenBegin ∧ m.tokenEnd ≤ m'.tokenEnd := by
  rw [isNotAfter, Bool.or_eq_true, Bool.and_eq_true, decide_eq_true_iff, decide_eq_true_iff,
    beq_iff_eq]

/-- Mentions with tokens of which no two overlap. -/
structure Disjoint (row : List CharacterMention) : Prop where
  nonempty : ∀ m ∈ row, m.tokenBegin < m.tokenEnd
  apart : row.Pairwise Apart

/-- A token becomes a mention only where no other one is. -/
theorem Disjoint.addTokenMention (disjoint : Disjoint row) (lex : Lexicon)
    (entry : (Token × Nat) × Nat) : Disjoint (addTokenMention lex row entry) := by
  obtain same | ⟨kind, -, clear, same⟩ := addTokenMention_cases lex row entry
  · rw [same]
    exact disjoint
  · rw [same]
    refine ⟨List.forall_mem_append.mpr ⟨disjoint.nonempty, ?_⟩, ?_⟩
    · exact List.forall_mem_singleton.mpr (Nat.lt_succ_self entry.2)
    · refine List.pairwise_append.mpr ⟨disjoint.apart, List.pairwise_singleton _ _, ?_⟩
      intro m mem m' new
      obtain rfl := List.mem_singleton.mp new
      have some := disjoint.nonempty m mem
      have outside : ¬(m.tokenBegin ≤ entry.2 ∧ entry.2 < m.tokenEnd) :=
        mt covers_iff.mpr (Bool.eq_false_iff.mp (clear m mem))
      show m.tokenEnd ≤ entry.2 ∨ entry.2 + 1 ≤ m.tokenBegin
      omega

/-- Sorted mentions that do not overlap lie one behind the other. -/
theorem Disjoint.ordered (disjoint : Disjoint row) :
    (row.mergeSort isNotAfter).Pairwise fun m m' => m.tokenEnd ≤ m'.tokenBegin := by
  have sorted : (row.mergeSort isNotAfter).Pairwise fun m m' => m.isNotAfter m' = true := by
    refine List.pairwise_mergeSort ?_ ?_ row
    · intro a b c first second
      rw [isNotAfter_iff] at first second ⊢
      omega
    · intro a b
      rw [Bool.or_eq_true, isNotAfter_iff, isNotAfter_iff]
      omega
  have apart : (row.mergeSort isNotAfter).Pairwise Apart :=
    (row.mergeSort_perm isNotAfter).symm.pairwise disjoint.apart fun apart => apart.symm
  refine (sorted.and apart).imp_of_mem ?_
  rintro m m' mem mem' ⟨before, apart⟩
  have some := disjoint.nonempty m (List.mem_mergeSort.mp mem)
  have some' := disjoint.nonempty m' (List.mem_mergeSort.mp mem')
  rw [isNotAfter_iff] at before
  unfold Apart at apart
  omega

end CharacterMention

namespace Context

variable {ctx : Context}

/-- The character mentions lie one behind the other, so that a token settles which of them starts
with it, ends in front of it or covers it. -/
structure Unambiguous (ctx : Context) : Prop where
  nonempty : ∀ m ∈ ctx.mentions, m.tokenBegin < m.tokenEnd
  ordered : ctx.mentions.Pairwise fun m m' => m.tokenEnd ≤ m'.tokenBegin
  /-- No token is covered twice. -/
  once (token : Nat) : ctx.mentions.countP (fun m => m.covers token) ≤ 1
  starting (token : Nat) (m : CharacterMention) :
    ctx.startingAt? token = some m ↔ m ∈ ctx.mentions ∧ m.tokenBegin = token
  ending (token : Nat) (m : CharacterMention) :
    ctx.endingAt? token = some m ↔ m ∈ ctx.mentions ∧ m.tokenEnd = token
  covering (token : Nat) (m : CharacterMention) : ctx.covering? token = some m ↔
    m ∈ ctx.mentions ∧ m.tokenBegin ≤ token ∧ token < m.tokenEnd

theorem unambiguous_of_ordered (nonempty : ∀ m ∈ ctx.mentions, m.tokenBegin < m.tokenEnd)
    (ordered : ctx.mentions.Pairwise fun m m' => m.tokenEnd ≤ m'.tokenBegin) :
    ctx.Unambiguous := by
  have only : ∀ (token : Nat), ∀ m ∈ ctx.mentions, ∀ m' ∈ ctx.mentions,
      m.tokenBegin ≤ token ∧ token < m.tokenEnd → m'.tokenBegin ≤ token ∧ token < m'.tokenEnd →
      m = m' := by
    intro token m mem m' mem' covers covers'
    obtain ⟨i, here⟩ := List.getElem?_of_mem mem
    obtain ⟨j, there⟩ := List.getElem?_of_mem mem'
    rw [place_eq_of_disjoint ordered here there covers covers', there] at here
    exact (Option.some.inj here).symm
  refine
    { nonempty := nonempty
      ordered := ordered
      once := fun token => ?_
      starting := fun token m => ?_
      ending := fun token m => ?_
      covering := fun token m => ?_ }
  · have same : (fun m : CharacterMention => m.covers token) =
        fun m => decide (m.tokenBegin ≤ token ∧ token < m.tokenEnd) := by
      funext m
      rw [CharacterMention.covers, Bool.decide_and]
    rw [same]
    by_cases covered : ∃ m ∈ ctx.mentions, m.tokenBegin ≤ token ∧ token < m.tokenEnd
    · obtain ⟨m, mem, covers⟩ := covered
      exact Nat.le_of_eq (countP_eq_one_of_disjoint ordered mem covers)
    · refine Nat.le_trans (Nat.le_of_eq (List.countP_eq_zero.mpr ?_)) (Nat.zero_le 1)
      intro m mem covers
      exact covered ⟨m, mem, of_decide_eq_true covers⟩
  · -- a mention covers the token that it starts with
    refine (find?_eq_some_iff_of_only ?_).trans (and_congr_right' beq_iff_eq)
    intro m mem m' mem' starts starts'
    have some := nonempty m mem
    have some' := nonempty m' mem'
    rw [beq_iff_eq] at starts starts'
    exact only token m mem m' mem' (by omega) (by omega)
  · -- a mention covers the token in front of its end
    refine (find?_eq_some_iff_of_only ?_).trans (and_congr_right' beq_iff_eq)
    intro m mem m' mem' ends ends'
    have some := nonempty m mem
    have some' := nonempty m' mem'
    rw [beq_iff_eq] at ends ends'
    exact only (token - 1) m mem m' mem' (by omega) (by omega)
  · refine (find?_eq_some_iff_of_only ?_).trans (and_congr_right' CharacterMention.covers_iff)
    intro m mem m' mem' covers covers'
    rw [CharacterMention.covers_iff] at covers covers'
    exact only token m mem m' mem' covers covers'

/-- Where every name is known each is counted once. -/
theorem sum_frequencies (named : ctx.NamesKnown) :
    ctx.frequencies.values.sum = ctx.mentions.countP fun m => m.kind == .name := by
  have all : (ctx.namings.map Character.name).length =
      ctx.mentions.countP fun m => m.kind == .name := by
    rw [List.length_map, namings, List.countP_eq_length_filter, List.filterMap_length_eq_length]
    intro m mem
    obtain ⟨listed, isName⟩ := List.mem_filter.mp mem
    exact named m listed (beq_iff_eq.mp isName)
  have counts := ctx.find?_frequencies
  have listed : ∀ name ∈ ctx.namings.map Character.name, name ∈ ctx.frequencies.keys := by
    intro name mem
    have positive := List.count_pos_iff.mpr mem
    rw [← counts name] at positive
    rw [Table.mem_keys_iff]
    cases found : ctx.frequencies.find? name with
    | some _ => rfl
    | none =>
      rw [found] at positive
      exact absurd positive (Nat.lt_irrefl 0)
  rw [← all, Table.sum_values_eq_length_iff listed fun name _ => Nat.le_of_eq (counts name)]
  exact fun name _ => counts name

end Context

namespace Document

variable {doc source : Document}

/-- The names that runs of tags make do not overlap. -/
theorem disjoint_names (source : Document) (lex : Lexicon) : CharacterMention.Disjoint
    ((source.entityMentions.filter EntityMention.isPerson).map (nameMention lex)) where
  nonempty := by
    refine List.forall_mem_map.mpr fun e mem => ?_
    obtain ⟨s, -, -, some, -⟩ :=
      (source.entityMentions_tagged.runs e (List.mem_of_mem_filter mem)).bounds
    exact some
  apart := by
    refine List.pairwise_map.mpr ((source.entityMentions_tagged.ordered.filter _).imp ?_)
    intro e f before
    exact .inl before

/-- With entity mentions made by tags the character mentions of a document are unambiguous, and each
name among them is counted for one character. -/
theorem context_unambiguous (lex : Lexicon) (made : doc.entities = source.entityMentions) :
    (doc.context lex).Unambiguous ∧
      (doc.context lex).frequencies.values.sum =
        (doc.context lex).mentions.countP fun m => m.kind == .name := by
  have disjoint : CharacterMention.Disjoint
      (doc.tokensWithSentences.zipIdx.foldl (addTokenMention lex)
        ((doc.entities.filter EntityMention.isPerson).map (nameMention lex))) := by
    rw [made]
    exact List.foldlRecOn (motive := CharacterMention.Disjoint) _ _ (disjoint_names source lex)
      fun _ disjoint entry _ => disjoint.addTokenMention lex entry
  refine ⟨Context.unambiguous_of_ordered ?_ disjoint.ordered,
    Context.sum_frequencies (doc.namesKnown_context lex)⟩
  intro m mem
  exact disjoint.nonempty m (List.mem_mergeSort.mp mem)

/-- The name of two tokens is found from its second one, though it comes behind a pronoun that was
added later. -/
theorem context_unambiguous_joe_smith :
    let word := fun (text pos ner : String) => { Token.ofWord text pos with ner := ner }
    let source := ofSentences "" [{ tokens := [word "He" "PRP" "O", word "saw" "VBD" "O",
      word "Joe" "NNP" "PERSON", word "Smith" "NNP" "PERSON"] }]
    let doc := { source with entities := source.entityMentions }
    let ctx := doc.context .default
    doc.entities = source.entityMentions ∧ ctx.Unambiguous ∧
      (ctx.covering? 3).map CharacterMention.text = some "Joe Smith" ∧
      ctx.frequencies.values.sum = 1 := by
  intro word source doc ctx
  have made : doc.entities = source.entityMentions := rfl
  obtain ⟨unambiguous, counted⟩ := context_unambiguous .default made
  have listed : ⟨"Joe Smith", 0, 2, 4, "PERSON", some 0⟩ ∈ doc.entities := by decide +kernel
  have named : nameMention .default _ ∈ ctx.mentions :=
    nameMention_mem_characterMentions listed (by decide +kernel)
  have covering := (unambiguous.covering 3 _).mpr ⟨named, by decide, by decide⟩
  refine ⟨made, unambiguous, ?_, ?_⟩
  · rw [covering]
    decide +kernel
  · refine counted.trans (((List.mergeSort_perm _ _).countP_eq _).trans ?_)
    decide +kernel

end Document

end Discourse
