import Discourse.Proofs.Attribution.Interference
import Discourse.Proofs.Attribution.Plain
/-!
# Taking turns

The sieve that follows strict turns looks two turns back before it looks ahead, and two turns back
it may have written a mention itself a moment ago.  Where quotations take turns without a gap, a
mention is therefore handed on from one to the next but one, and one pass carries it to the last of
them.  A quotation that came to the pass with a mention of its own hands on that one.
-/

namespace Discourse

namespace Scene

variable {S : Type}

/-- The mention of the quotation of an index. -/
def mentionAt? (sc : Scene S) (index : Nat) : Option QuoteMention :=
  (sc.doc.quotes[index]?).bind Quotation.mention?

/-- Each of the next `count` quotations after the quotation of an index starts one paragraph further
on than the quotation before it. -/
def TakeTurns (sc : Scene S) (index count : Nat) : Prop :=
  ∀ j < count, ∃ p, sc.paragraphOfQuote? (index + j) = some p ∧
    sc.paragraphOfQuote? (index + j + 1) = some (p + 1)

variable {sc sc' : Scene S} {i j n : Nat}

theorem TakeTurns.part (turns : sc.TakeTurns i n) {count : Nat} (inside : j + count ≤ n) :
    sc.TakeTurns (i + j) count := by
  intro l lt
  rw [Nat.add_assoc]
  exact turns (j + l) (by omega)

theorem TakeTurns.alternates (turns : sc.TakeTurns i 2) :
    sc.alternates i (i + 1) (i + 2) true = true := by
  obtain ⟨p, first, second⟩ := turns 0 (by omega)
  obtain ⟨_, second', third⟩ := turns 1 (by omega)
  obtain rfl := Option.some.inj (second.symm.trans second')
  rw [Nat.add_zero] at first
  simp only [Scene.alternates, first, second', third]
  simp

theorem TakeTurns.exists_last (turns : sc.TakeTurns i (n + 1)) :
    ∃ q, sc.doc.quotes[i + n + 1]? = some q := by
  obtain ⟨p, -, last⟩ := turns n (Nat.lt_succ_self n)
  obtain ⟨q, here, -⟩ := Option.bind_eq_some_iff.mp last
  exact ⟨q, here⟩

theorem paragraphOfQuote?_plain (sc : Scene S) (i : Nat) :
    sc.plain.paragraphOfQuote? i = sc.paragraphOfQuote? i := by
  rw [paragraphOfQuote?, quote_plain, Option.bind_map]
  rfl

/-- Whether quotations take turns does not depend on what they are attributed. -/
theorem TakeTurns.of_plain (turns : sc.TakeTurns i n) (same : sc'.plain = sc.plain) :
    sc'.TakeTurns i n := by
  intro j lt
  rw [← sc'.paragraphOfQuote?_plain, ← sc'.paragraphOfQuote?_plain, same,
    sc.paragraphOfQuote?_plain, sc.paragraphOfQuote?_plain]
  exact turns j lt

/-- What is found two turns back is taken, whatever there may be two turns ahead. -/
theorem conversational?_of_back {m : QuoteMention} (turns : sc.TakeTurns i 2)
    (back : sc.mentionAt? i = some m) :
    sc.conversational? (i + 2) true = some m.toResolution := by
  have found : (sc.doc.quotes[i]?).bind Quotation.resolution? = some m.toResolution := by
    obtain ⟨q, here, given⟩ := Option.bind_eq_some_iff.mp back
    rw [here, Option.bind_some, Quotation.resolution?, given, Option.map_some]
  have next : i + 2 - 1 = i + 1 := by omega
  rw [conversational?]
  dsimp only
  rw [Nat.add_sub_cancel, next, if_pos ⟨Nat.le_add_left 2 i, turns.alternates⟩, found]
  rfl

end Scene

namespace Chain

variable {S : Type} [QuoteScorer S] {sc : Scene S} {i k : Nat}

theorem plain_sweep_mentions (sieve : QuoteSieve) (sc : Scene S) (n : Nat) :
    (mentions.sweep sieve sc n).plain = sc.plain :=
  plain_turn (c := mentions) (fun _ _ => rfl) sc [] sieve n

theorem mentionAt?_pass (sieve : QuoteSieve) (sc : Scene S) (i : Nat) :
    (mentions.pass sc sieve).mentionAt? i =
      (sc.mentionAt? i).or ((sc.doc.quotes[i]?).bind fun _ =>
        mentions.answer? sieve (mentions.sweep sieve sc i) i) := by
  rw [Scene.mentionAt?, Scene.mentionAt?, quote_pass]
  cases sc.doc.quotes[i]? with
  | none => rfl
  | some q => exact q.mention?_settle_mentions _

/-- At the turn of a quotation the earlier ones have what they have after the pass. -/
theorem mentionAt?_sweep {sieve : QuoteSieve} {n : Nat} (earlier : i < n) :
    (mentions.sweep sieve sc n).mentionAt? i = (mentions.pass sc sieve).mentionAt? i := by
  rw [Scene.mentionAt?, Scene.mentionAt?, quote_pass, quote_sweep_of_lt sieve sc earlier]

/-- A quotation without a mention gets the one that the quotation two turns back has when the pass
ends. -/
theorem mentionAt?_pass_add_two {m : QuoteMention} (turns : sc.TakeTurns i 2)
    (back : (mentions.pass sc .conversational).mentionAt? i = some m) :
    (mentions.pass sc .conversational).mentionAt? (i + 2) =
      (sc.mentionAt? (i + 2)).or
        (some { m with sieve := QuoteSieve.conversational.key }) := by
  obtain ⟨q, here⟩ := turns.exists_last
  have here : sc.doc.quotes[i + 2]? = some q := here
  have moment := turns.of_plain (plain_sweep_mentions .conversational sc (i + 2))
  have before := (mentionAt?_sweep (Nat.lt_add_of_pos_right Nat.two_pos)).trans back
  have reached : (mentions.sweep .conversational sc (i + 2)).doc.quotes[i + 2]? = some q :=
    (quote_sweep_of_le _ _ (Nat.le_refl _)).trans here
  have answer : mentions.answer? .conversational
      (mentions.sweep .conversational sc (i + 2)) (i + 2) =
        some { m with sieve := QuoteSieve.conversational.key } := by
    refine Option.map_eq_some_iff.mpr ⟨m.toResolution, ?_, rfl⟩
    rw [QuoteSieve.resolve?_eq_some_iff, QuoteSieve.resolve, reached]
    exact congrArg Except.ok (Scene.conversational?_of_back moment before)
  rw [mentionAt?_pass, here, Option.bind_some, answer]

/-- A mention reaches every other quotation of a row that takes turns. -/
theorem mentionAt?_pass_isSome (turns : sc.TakeTurns i (2 * k))
    (first : (sc.mentionAt? i).isSome) :
    ((mentions.pass sc .conversational).mentionAt? (i + 2 * k)).isSome := by
  induction k with
  | zero =>
    obtain ⟨m, given⟩ := Option.isSome_iff_exists.mp first
    rw [Nat.mul_zero, Nat.add_zero, mentionAt?_pass, given]
    rfl
  | succ k ih =>
    obtain ⟨m, back⟩ := Option.isSome_iff_exists.mp (ih (turns.part (j := 0) (by omega)))
    have step := mentionAt?_pass_add_two (turns.part (j := 2 * k) (by omega)) back
    rw [Nat.mul_succ, ← Nat.add_assoc, step, Option.isSome_or, Option.isSome_some, Bool.or_true]

/-- Where none of them has a mention of its own, it is handed on as it is. -/
theorem mentionAt?_pass_handed {m : QuoteMention} (turns : sc.TakeTurns i (2 * (k + 1)))
    (first : sc.mentionAt? i = some m)
    (unmentioned : ∀ j ≤ k, sc.mentionAt? (i + 2 * (j + 1)) = none) :
    (mentions.pass sc .conversational).mentionAt? (i + 2 * (k + 1)) =
      some { m with sieve := QuoteSieve.conversational.key } := by
  have own := unmentioned k (Nat.le_refl k)
  rw [Nat.mul_succ, ← Nat.add_assoc] at own ⊢
  induction k with
  | zero =>
    have back : (mentions.pass sc .conversational).mentionAt? i = some m := by
      rw [mentionAt?_pass, first, Option.some_or]
    exact (mentionAt?_pass_add_two turns back).trans (by rw [own, Option.none_or])
  | succ k ih =>
    have back := ih (turns.part (j := 0) (by omega)) (fun j le => unmentioned j (by omega))
      (unmentioned k (by omega))
    rw [mentionAt?_pass_add_two (turns.part (j := 2 * (k + 1)) (by omega)) back, own,
      Option.none_or]

end Chain

/-! ## In an attribution -/

namespace Document

section

variable {S : Type} [QuoteScorer S] {doc : Document} {lex : Lexicon}
  {settings : AttributionSettings} {scorer? : Option S}

/-- The scene of an attribution when some of the sieves for mentions are through. -/
def sceneAfter (doc : Document) (lex : Lexicon) (settings : AttributionSettings)
    (scorer? : Option S) (ran : List QuoteSieve) : Except Stop (Scene S) :=
  (doc.readyForAttribution.scene lex settings scorer?).mentionedBy ran

theorem sceneAfter_eq_ok_iff {ran : List QuoteSieve} {sc : Scene S} :
    doc.sceneAfter lex settings scorer? ran = .ok sc ↔
      (doc.readyForAttribution.scene lex settings scorer?).Passable ran ∧
        Chain.mentions.run (doc.readyForAttribution.scene lex settings scorer?) ran = sc :=
  Scene.mentionedBy_eq_ok_iff

/-- A sieve that reads no dependencies goes on to the end. -/
theorem sceneAfter_append_singleton {ran : List QuoteSieve} {sc : Scene S}
    (reached : doc.sceneAfter lex settings scorer? ran = .ok sc) {sieve : QuoteSieve}
    (other : sieve ≠ .dependency) :
    doc.sceneAfter lex settings scorer? (ran ++ [sieve]) =
      .ok (Chain.mentions.pass sc sieve) := by
  obtain ⟨passable, rfl⟩ := sceneAfter_eq_ok_iff.mp reached
  refine sceneAfter_eq_ok_iff.mpr ⟨(Scene.passable_append ran [sieve]).mpr ⟨passable, ?_⟩, ?_⟩
  · exact Scene.passable_of_not_mem fun mem => other (List.mem_singleton.mp mem).symm
  · rw [Chain.run_append]
    rfl

/-- A mention that is there when some of the sieves are through is there at the end. -/
theorem mention?_of_sceneAfter {final : Document} {summary : AttributionSummary}
    (outcome : doc.attributeQuotes lex settings scorer? = .ok (final, summary))
    {ran rest : List QuoteSieve} (split : settings.quoteSieves = ran ++ rest) {sc : Scene S}
    (reached : doc.sceneAfter lex settings scorer? ran = .ok sc) {i : Nat}
    {m : QuoteMention} (given : sc.mentionAt? i = some m) :
    (final.quotes[i]?).bind Quotation.mention? = some m := by
  have attributed := attributed_of_attributeQuotes outcome
  obtain ⟨mentioned, -, each⟩ := attributed.quotations
  obtain ⟨q₁, there, mention⟩ := Option.bind_eq_some_iff.mp given
  have inside : i < doc.readyForAttribution.quotes.length := by
    obtain ⟨bound, -⟩ := List.getElem?_eq_some_iff.mp there
    obtain ⟨-, rfl⟩ := sceneAfter_eq_ok_iff.mp reached
    rw [(Chain.onlyQuotes_run _ ran).length] at bound
    exact bound
  have last := List.getElem?_eq_getElem (attributed.length ▸ inside)
  obtain ⟨sc', reached', stays⟩ :=
    (each i _ _ (List.getElem?_eq_getElem inside) last).mentionStays ran rest split
  cases reached.symm.trans reached'
  rw [last]
  exact stays q₁ m there mention

variable {before after : List QuoteSieve} {i k : Nat}

/-- A mention travels through an exchange in one pass.  Of quotations that start in paragraphs each
one higher than the last, let the first have a mention when strict turns are about to be followed.
Then every other one has a mention when that pass is over, and if none of these had one before, they
all have the mention of the first, text, range and kind.  They keep it to the end. -/
theorem attributeQuotes_alternates
    (listed : settings.quoteSieves = before ++ .conversational :: after)
    (turns : (doc.readyForAttribution.scene lex settings scorer?).TakeTurns i (2 * k))
    {opening : Scene S} (opens : doc.sceneAfter lex settings scorer? before = .ok opening)
    {m : QuoteMention} (first : opening.mentionAt? i = some m) :
    ∃ closing, doc.sceneAfter lex settings scorer? (before ++ [.conversational]) = .ok closing ∧
      (closing.mentionAt? (i + 2 * k)).isSome ∧
      ((∀ j, 1 ≤ j → j ≤ k → opening.mentionAt? (i + 2 * j) = none) →
        ∀ j, 1 ≤ j → j ≤ k → closing.mentionAt? (i + 2 * j) =
          some { m with sieve := QuoteSieve.conversational.key }) ∧
      ∀ final summary, doc.attributeQuotes lex settings scorer? = .ok (final, summary) →
        ∀ j ≤ k, (final.quotes[i + 2 * j]?).bind Quotation.mention? =
          closing.mentionAt? (i + 2 * j) := by
  have other : QuoteSieve.conversational ≠ .dependency := nofun
  have closes := sceneAfter_append_singleton opens other
  have moment : opening.TakeTurns i (2 * k) := by
    obtain ⟨-, rfl⟩ := sceneAfter_eq_ok_iff.mp opens
    exact turns.of_plain (Chain.plain_run (fun _ _ => rfl) _ before)
  have reached (j : Nat) (inside : j ≤ k) :
      ((Chain.mentions.pass opening .conversational).mentionAt? (i + 2 * j)).isSome :=
    Chain.mentionAt?_pass_isSome (moment.part (j := 0) (by omega)) (by rw [first]; rfl)
  refine ⟨_, closes, reached k (Nat.le_refl k), fun unmentioned j from_ to_ => ?_,
    fun final summary outcome j inside => ?_⟩
  · obtain ⟨j, rfl⟩ := Nat.exists_eq_add_of_le' from_
    refine Chain.mentionAt?_pass_handed (moment.part (j := 0) (by omega)) first fun l le => ?_
    exact unmentioned (l + 1) (by omega) (by omega)
  · obtain ⟨m', given⟩ := Option.isSome_iff_exists.mp (reached j inside)
    have split : settings.quoteSieves = (before ++ [.conversational]) ++ after := by
      rw [listed, List.append_assoc, List.singleton_append]
    rw [given]
    exact mention?_of_sceneAfter outcome split closes given

end

/-- Of five turns only the first is followed by the name of its speaker; the third and the fifth get
it as well. -/
theorem attributeQuotes_alternates_joe :
    let turn := fun (word : String) =>
      [Token.ofWord "\"" "``", Token.ofWord word "UH", Token.ofWord "\"" "''"]
    let said := { Token.ofWord "said" "VBD" with baseForm := "say" }
    let joe := { Token.ofWord "Joe" "NNP" with ner := "PERSON" }
    let doc := ofSentences "" ({ tokens := turn "One" ++ [said, joe] } ::
      ["Two", "Three", "Four", "Five"].map fun word => { tokens := turn word })
    let settings := { AttributionSettings.default with quoteSieves := [.trigram, .conversational] }
    let scorer? : Option Scorer := none
    (doc.readyForAttribution.scene .default settings scorer?).TakeTurns 0 4 ∧
      ∃ opening closing, doc.sceneAfter .default settings scorer? [.trigram] = .ok opening ∧
        doc.sceneAfter .default settings scorer? [.trigram, .conversational] = .ok closing ∧
        opening.mentionAt? 0 = some ⟨⟨"Joe", 4, 5, .name⟩, "tri"⟩ ∧
        (∀ j, 1 ≤ j → j ≤ 2 → opening.mentionAt? (0 + 2 * j) = none) ∧
        ∀ j, 1 ≤ j → j ≤ 2 →
          closing.mentionAt? (0 + 2 * j) = some ⟨⟨"Joe", 4, 5, .name⟩, "conv"⟩ := by
  intro turn said joe doc settings scorer?
  have paragraphs : ∀ j < 5,
      (doc.readyForAttribution.scene .default settings scorer?).paragraphOfQuote? j =
        some (j + 1) := by
    decide +kernel
  have turns : (doc.readyForAttribution.scene .default settings scorer?).TakeTurns 0 4 := by
    intro j lt
    rw [Nat.zero_add]
    exact ⟨j + 1, paragraphs j (by omega), paragraphs (j + 1) (by omega)⟩
  have found : (doc.sceneAfter .default settings scorer? [.trigram]).map (fun opening =>
      [0, 2, 4].map opening.mentionAt?) = .ok [some ⟨⟨"Joe", 4, 5, .name⟩, "tri"⟩, none, none] := by
    decide +kernel
  obtain ⟨opening, opens, mentions⟩ := map_eq_ok_iff.mp found
  obtain ⟨first, later⟩ := List.cons.inj mentions
  obtain ⟨second, later⟩ := List.cons.inj later
  obtain ⟨third, -⟩ := List.cons.inj later
  have unmentioned : ∀ j, 1 ≤ j → j ≤ 2 → opening.mentionAt? (0 + 2 * j) = none := by
    intro j from_ to_
    obtain rfl | rfl : j = 1 ∨ j = 2 := by omega
    · exact second
    · exact third
  have listed : settings.quoteSieves = [.trigram] ++ .conversational :: [] := rfl
  obtain ⟨closing, closes, -, handed, -⟩ := @attributeQuotes_alternates Scorer _ doc .default
    settings scorer? [.trigram] [] 0 2 listed turns opening opens _ first
  exact ⟨turns, opening, closing, opens, closes, first, unmentioned, handed unmentioned⟩

end Document

end Discourse
