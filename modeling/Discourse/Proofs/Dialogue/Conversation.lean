import Discourse.Dialogue.Conversation
import Discourse.Proofs.Runs
import Discourse.Proofs.Dialogue.Speaking
import Mathlib.Data.List.Induction
/-!
# Who speaks in a conversation

Who a conversation says that its utterances are spoken by (`Document.ConversationSpoken`).  A mention
that is said to be "I" speaks the utterance of its head token, and the last of several such mentions
does.  An utterance without such a mention is given a speaker by the turns in which it is spoken, the
runs of sentences that open in it; the first turn that knows of a speaker decides, and what has been
announced by the turn before comes before the turn's own label.

The search walks through the turns and carries two things along, the speakers that it has found and what
the last turn has announced.  Neither is read from the document again: what was announced is what the
sentence before the turn announces, and to find no speaker yet for an utterance is to have passed no
turn of it that decides (`find?_giveTurns`).
-/

namespace Discourse

/-- Of a row of insertions the last one at a key is found. -/
theorem Table.find?_foldl_insert_last {α β κ : Type} [KeyOrder κ] [DecidableEq κ] {key : α → κ}
    {value : α → β} (row : List α) (t : Table κ β) (k : κ) :
    (row.foldl (fun t x => t.insert (key x) (value x)) t).find? k =
      ((row.reverse.find? fun x => key x == k).map value).or (t.find? k) := by
  induction row using List.reverseRecOn with
  | nil => rfl
  | append_singleton before x ih =>
    rw [List.foldl_append, List.reverse_append, List.reverse_singleton, List.singleton_append,
      List.find?_cons]
    show (Table.insert _ (key x) (value x)).find? k = _
    rw [Table.find?_insert, ih]
    by_cases same : key x = k
    · rw [if_pos same.symm, beq_iff_eq.mpr same]
      rfl
    · rw [if_neg (Ne.symm same), beq_eq_false_iff_ne.mpr same]

theorem Text.toLower_eq_i_iff {c : Char} : c.toLower = 'i' ↔ c = 'I' ∨ c = 'i' := by
  constructor
  · intro same
    by_cases capital : c.val ≥ 'A'.val ∧ c.val ≤ 'Z'.val
    · have moved : c.toLower.val = c.val + 32 := congrArg Char.val (dif_pos capital)
      rw [same] at moved
      exact .inl (Char.ext (by grind))
    · have kept : c.toLower = c := dif_neg capital
      exact .inr (kept.symm.trans same)
  · rintro (rfl | rfl) <;> rfl

theorem Text.equalFold_i_iff {s : String} : Text.equalFold s "i" = true ↔ s = "I" ∨ s = "i" := by
  rw [Text.equalFold, beq_iff_eq, ← String.toList_inj, ← String.toList_inj]
  show _ = ['i'] ↔ _ = ['I'] ∨ _ = ['i']
  rw [List.map_eq_singleton_iff]
  constructor
  · rintro ⟨c, row, small⟩
    rw [row]
    rcases Text.toLower_eq_i_iff.mp small with rfl | rfl
    · exact .inl rfl
    · exact .inr rfl
  · rintro (row | row)
    · exact ⟨'I', row, rfl⟩
    · exact ⟨'i', row, rfl⟩

namespace Document

variable {doc : Document} {lex : Lexicon} {u : Nat}

/-! ## Mentions that name themselves -/

/-- The utterance of the head token of a mention; a mention without one counts as in the first. -/
def headUtterance (doc : Document) (m : Mention) : Nat :=
  ((doc.headToken? m).map Token.utterance).getD 0

/-- A mention in an utterance is said to be "I". -/
def NamesSelfIn (doc : Document) (u : Nat) (m : Mention) : Prop :=
  doc.headUtterance m = u ∧ ∃ id ∈ m.predicateNominatives.toList, ∃ p,
    doc.mention? id = some p ∧ (p.text = "I" ∨ p.text = "i")

theorem namesItself_iff {m : Mention} : doc.namesItself m = true ↔
    ∃ id ∈ m.predicateNominatives.toList, ∃ p,
      doc.mention? id = some p ∧ (p.text = "I" ∨ p.text = "i") := by
  rw [namesItself, List.any_eq_true]
  refine exists_congr fun id => and_congr_right fun _ => ?_
  cases found : doc.mention? id with
  | none => simp
  | some p => simp [Text.equalFold_i_iff]

/-- The speaker of an utterance who names himself in it. -/
def selfNamer? (doc : Document) (u : Nat) : Option Mention :=
  doc.orderedMentions.reverse.find? fun m => doc.namesItself m && doc.headUtterance m == u

theorem namesSelfIn_iff {m : Mention} :
    (doc.namesItself m && doc.headUtterance m == u) = true ↔ doc.NamesSelfIn u m := by
  rw [Bool.and_eq_true, beq_iff_eq, namesItself_iff, and_comm]
  rfl

theorem selfNamer?_of_last {front back : List Mention} {m : Mention}
    (split : doc.orderedMentions = front ++ m :: back) (names : doc.NamesSelfIn u m)
    (later : ∀ m' ∈ back, ¬doc.NamesSelfIn u m') : doc.selfNamer? u = some m := by
  rw [selfNamer?, List.find?_eq_some_iff_append]
  refine ⟨namesSelfIn_iff.mpr names, back.reverse, front.reverse, by simp [split], ?_⟩
  intro m' mem
  rw [Bool.not_eq_true', Bool.eq_false_iff]
  exact fun passes => later m' (List.mem_reverse.mp mem) (namesSelfIn_iff.mp passes)

theorem selfNamer?_eq_none_iff :
    doc.selfNamer? u = none ↔ ∀ m ∈ doc.orderedMentions, ¬doc.NamesSelfIn u m := by
  rw [selfNamer?, List.find?_eq_none]
  simp only [List.mem_reverse, namesSelfIn_iff]

theorem find?_selfNamed (doc : Document) (u : Nat) :
    (doc.selfNamed.foldl (fun t (entry : Nat × MentionId) => t.insert entry.1 (toString entry.2))
      doc.speakers).find? u =
      ((doc.selfNamer? u).map fun m => toString m.id).or (doc.speakers.find? u) := by
  rw [selfNamed, List.foldl_map, Table.find?_foldl_insert_last, ← List.filter_reverse,
    List.find?_filter, selfNamer?]
  simp only [Bool.decide_and, Bool.decide_eq_true]
  rfl

/-! ## Turns -/

/-- The turns of a conversation are the runs of sentences that open in one utterance. -/
theorem exists_cut_turns {start : Nat} {front rest : List Sentence} {s : Sentence}
    (alike : ∀ a ∈ front, openingUtterance a = openingUtterance s) :
    ∃ runs, Cut openingUtterance start (front ++ s :: rest) runs ∧
      turns (start + front.length) (s :: rest) = runs.map fun r => (r.2.2, r.2.1 - 1) := by
  induction rest generalizing start front s with
  | nil =>
    have all : ∀ a ∈ front ++ [s], openingUtterance a = openingUtterance s :=
      List.forall_mem_append.mpr ⟨alike, List.forall_mem_singleton.mpr rfl⟩
    have cut : Cut openingUtterance start (front ++ [s] ++ []) _ :=
      .cons (List.concat_ne_nil s front) all (fun a none => nomatch none) (.nil _)
    rw [List.append_nil] at cut
    refine ⟨_, cut, ?_⟩
    simp [turns]
  | cons next rest ih =>
    rw [turns]
    split
    next same =>
      -- the run goes on, so that the sentence joins the front of the next one
      have all : ∀ a ∈ front ++ [s], openingUtterance a = openingUtterance next :=
        List.forall_mem_append.mpr
          ⟨fun a mem => (alike a mem).trans same, List.forall_mem_singleton.mpr same⟩
      obtain ⟨runs, cut, turns⟩ := @ih start (front ++ [s]) next all
      rw [List.append_assoc, List.singleton_append] at cut
      rw [List.length_append, List.length_singleton, ← Nat.add_assoc] at turns
      exact ⟨runs, cut, turns⟩
    next differ =>
      have all : ∀ a ∈ front ++ [s], openingUtterance a = openingUtterance s :=
        List.forall_mem_append.mpr ⟨alike, List.forall_mem_singleton.mpr rfl⟩
      have length : start + (front ++ [s]).length = start + front.length + 1 := by
        rw [List.length_append, List.length_singleton, Nat.add_assoc]
      obtain ⟨runs, cut, turns⟩ := @ih (start + front.length + 1) [] next
        (fun a none => nomatch none)
      rw [List.nil_append, ← length] at cut
      have whole := Cut.cons (List.concat_ne_nil s front) all (by simpa using Ne.symm differ) cut
      rw [List.append_assoc, List.singleton_append, length] at whole
      exact ⟨_, whole, by rw [List.map_cons, ← turns]; rfl⟩

/-- Who a turn knows of as the speaker: whom the sentence before it announces, or else whom its last
sentence names as a label. -/
def turnSpeaker? (doc : Document) (lex : Lexicon) (first stop : Nat) : Option String :=
  (if first = 0 then none else doc.announced? lex (first - 1)) <|> doc.speakerLabel? (stop - 1)

/-- The speaker that the turns give to an utterance is the one that the first turn of it knows of, if it
had none. -/
theorem find?_giveTurns {i : Nat} {row : List Sentence} {runs : List (Nat × Nat × Nat)}
    (cut : Cut openingUtterance i row runs) (doc : Document) :
    (doc.giveTurns lex (if i = 0 then none else doc.announced? lex (i - 1))
      (runs.map fun r => (r.2.2, r.2.1 - 1))).speakers.find? u =
      (doc.speakers.find? u).or
        (runs.findSome? fun r => if r.2.2 = u then doc.turnSpeaker? lex r.1 r.2.1 else none) := by
  induction cut generalizing doc with
  | nil i => simp [giveTurns]
  | @cons i k run rest runs nonempty _ _ _ ih =>
    have later : i + run.length ≠ 0 := by
      have := List.length_pos_iff.mpr nonempty
      omega
    simp only [if_neg later] at ih
    rw [List.map_cons, giveTurns, List.findSome?_cons]
    have speaker : ((if i = 0 then none else doc.announced? lex (i - 1)) <|>
        doc.speakerLabel? (i + run.length - 1)) = doc.turnSpeaker? lex i (i + run.length) := rfl
    simp only [speaker]
    split
    next spoken =>
      obtain ⟨s, found⟩ := Option.isSome_iff_exists.mp spoken
      rw [ih doc]
      by_cases same : k = u
      · rw [← same, found, Option.some_or, Option.some_or]
      · rw [if_neg same]
    next unspoken =>
      have missing : doc.speakers.find? k = none := Option.not_isSome_iff_eq_none.mp unspoken
      cases known : doc.turnSpeaker? lex i (i + run.length) with
      | none =>
        rw [ite_self]
        exact ih doc
      | some s =>
        refine (ih { doc with speakers := doc.speakers.insert k s }).trans ?_
        show (Table.find? (doc.speakers.insert k s) u).or _ = _
        rw [Table.find?_insert]
        by_cases same : k = u
        · rw [if_pos same.symm, if_pos same, ← same, missing]
          rfl
        · rw [if_neg (Ne.symm same), if_neg same]
          rfl

/-! ## The whole search -/

/-- The speakers of a conversation that has been searched. -/
structure ConversationSpoken (doc : Document) (lex : Lexicon) (d : Document) : Prop where
  /-- Only speakers are written. -/
  rest : d = { doc with speakers := d.speakers }
  /-- The last one who names himself in an utterance speaks it. -/
  named : ∀ u front m back, doc.orderedMentions = front ++ m :: back → doc.NamesSelfIn u m →
    (∀ m' ∈ back, ¬doc.NamesSelfIn u m') → d.speakers.find? u = some (toString m.id)
  /-- If nobody does, the first turn of the utterance that knows of a speaker decides. -/
  told : ∀ u first stop s, (∀ m ∈ doc.orderedMentions, ¬doc.NamesSelfIn u m) →
    IsRun openingUtterance doc.sentences first stop u → doc.turnSpeaker? lex first stop = some s →
    (∀ first' stop', IsRun openingUtterance doc.sentences first' stop' u → first' < first →
      doc.turnSpeaker? lex first' stop' = none) →
    d.speakers.find? u = some s
  /-- If none of its turns does either, the utterance has no speaker. -/
  silent : ∀ u, (∀ m ∈ doc.orderedMentions, ¬doc.NamesSelfIn u m) →
    (∀ first stop, IsRun openingUtterance doc.sentences first stop u →
      doc.turnSpeaker? lex first stop = none) →
    d.speakers.find? u = none

/-- The turns of a whole conversation, as its runs. -/
theorem exists_cut_sentences (doc : Document) :
    ∃ runs, Cut openingUtterance 0 doc.sentences runs ∧
      turns 0 doc.sentences = runs.map fun r => (r.2.2, r.2.1 - 1) := by
  cases sentences : doc.sentences with
  | nil => exact ⟨[], .nil 0, rfl⟩
  | cons s rest => exact @exists_cut_turns 0 [] rest s fun a none => nomatch none

/-- What the search finds for an utterance: who names himself in it, or whom its turns give it. -/
theorem find?_findSpeakersInConversation (lex : Lexicon) (unspoken : doc.speakers = {})
    {runs : List (Nat × Nat × Nat)} (cut : Cut openingUtterance 0 doc.sentences runs)
    (eq : turns 0 doc.sentences = runs.map fun r => (r.2.2, r.2.1 - 1)) (u : Nat) :
    (doc.findSpeakersInConversation lex).speakers.find? u =
      ((doc.selfNamer? u).map fun m => toString m.id).or
        (runs.findSome? fun r => if r.2.2 = u then doc.turnSpeaker? lex r.1 r.2.1 else none) := by
  have named := doc.find?_selfNamed u
  rw [unspoken, Table.find?_empty, Option.or_none] at named
  rw [findSpeakersInConversation, eq, unspoken, ← named]
  exact find?_giveTurns cut _

/-- Searching a conversation finds who names himself, and otherwise what the turns know. -/
theorem findSpeakersInConversation_spoken (lex : Lexicon) (unspoken : doc.speakers = {}) :
    ConversationSpoken doc lex (doc.findSpeakersInConversation lex) := by
  obtain ⟨runs, cut, eq⟩ := doc.exists_cut_sentences
  have found := fun u => find?_findSpeakersInConversation lex unspoken cut eq u
  constructor
  case rest =>
    obtain ⟨speakers, same⟩ := giveTurns_eq _ lex none (turns 0 doc.sentences)
    rw [findSpeakersInConversation, same]
  case named =>
    intro u front m back split names later
    rw [found, selfNamer?_of_last split names later]
    rfl
  case told =>
    intro u first stop s unnamed run knows before
    rw [found, selfNamer?_eq_none_iff.mpr unnamed, Option.map_none, Option.none_or]
    exact cut.findSome?_of_first run knows before
  case silent =>
    intro u unnamed unknown
    rw [found, selfNamer?_eq_none_iff.mpr unnamed, Option.map_none, Option.none_or]
    exact cut.findSome?_eq_none unknown

/-- Joe speaks after the line that announces him, though the line names Ann; Zoe, who is said to be "I",
speaks after her; the first utterance is spoken by the Bob of its second turn; nobody speaks the last. -/
theorem findSpeakersInConversation_spoken_joe :
    let token (word pos ner : String) (utterance : Nat) : Token :=
      { word, baseForm := word, pos, ner, utterance? := some utterance }
    let verb : DependencyGraph := ⟨[⟨some 1, 0, "nsubj"⟩]⟩
    let said : Sentence :=
      { tokens := [token "Joe" "NNP" "PERSON" 0, token "say" "VBD" "O" 0], basic? := some verb }
    let label : Sentence := { tokens := [token "Ann" "NNP" "PERSON" 1] }
    let self : Sentence := { tokens := [token "I" "PRP" "O" 2, token "Zoe" "NNP" "PERSON" 2] }
    let again : Sentence := { tokens := [token "Bob" "NNP" "PERSON" 0] }
    let last : Sentence := { tokens := [token "so" "RB" "O" 3] }
    let mention (id sentence head : Nat) (text : String) : Mention :=
      { id, sentence, start := head, stop := head + 1, head, text, ner := "PERSON" }
    let zoe : Mention := { mention 3 2 1 "Zoe" with predicateNominatives := .ofList [2] }
    let mentions := [mention 0 0 0 "Joe", mention 1 1 0 "Ann", mention 2 2 0 "I", zoe,
      mention 4 3 0 "Bob"]
    let doc : Document :=
      { mentions.foldl Document.addMention (.ofSentences "" [said, label, self, again, last]) with
        headed := .ofList (mentions.map fun m => ((m.sentence, m.head), m.id)) }
    let lex : Lexicon := ⟨KeySet.ofList ["say"], {}, {}, {}, {}⟩
    doc.speakers = {} ∧
      (doc.findSpeakersInConversation lex).speakers.entries = [(0, "4"), (1, "0"), (2, "3")] ∧
      ConversationSpoken doc lex (doc.findSpeakersInConversation lex) := by
  intro token verb said label self again last mention zoe mentions doc lex
  have unspoken : doc.speakers = {} := by decide +kernel
  exact ⟨unspoken, by decide +kernel, findSpeakersInConversation_spoken lex unspoken⟩

end Document

end Discourse
