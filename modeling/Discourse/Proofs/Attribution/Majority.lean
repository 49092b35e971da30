import Discourse.Proofs.Attribution.Exhaustion
import Discourse.Proofs.Attribution.Provenance
/-!
# The majority speaks for everybody

With the name met most often among the sieves for speakers, an attribution gives every quotation a
speaker or none of them (`attributeQuotes_allOrNone`).  It is a matter of the entity mentions alone:
one person among them is enough, wherever it stands and however its name is written.

The entity mention of a person is a name among the character mentions, and every such name finds a
character, for which it is counted (`find?_frequencies`).  So somebody has been named at least once,
and the sieve has an answer for each quotation that the others have left without one.  Where no
entity mention is a person there are no characters, and no sieve has a speaker from anywhere else.
-/

namespace Discourse

/-- Counting names adds to each as often as it occurs. -/
theorem getD_find?_foldl_insert (named : List Character) (t : Table String Nat) (name : String) :
    ((named.foldl (fun t c => t.insert c.name ((t.find? c.name).getD 0 + 1)) t).find? name).getD 0 =
      (t.find? name).getD 0 + (named.map Character.name).count name := by
  induction named generalizing t with
  | nil => rfl
  | cons c rest ih =>
    rw [List.foldl_cons, ih, Table.find?_insert, List.map_cons, List.count_cons]
    by_cases same : name = c.name
    · subst same
      rw [if_pos rfl, Option.getD_some, beq_self_eq_true, if_pos rfl]
      omega
    · rw [if_neg same, if_neg (by simpa using Ne.symm same)]
      rfl

/-- There are no characters exactly if no entity mention is a person. -/
theorem charactersOf_eq_nil_iff {lex : Lexicon} {entities : List EntityMention} :
    charactersOf lex entities = [] ↔ ∀ e ∈ entities, e.isPerson = false := by
  constructor
  · intro nobody e mem
    refine Bool.eq_false_iff.mpr fun person => ?_
    obtain ⟨c, made, -⟩ := exists_mem_charactersOf lex mem person
    rw [nobody] at made
    cases made
  · intro nobody
    rw [charactersOf, List.filter_eq_nil_iff.mpr fun e mem => Bool.eq_false_iff.mp (nobody e mem)]
    rfl

theorem mem_addTokenMention_of_mem {lex : Lexicon} {mentions : List CharacterMention}
    {entry : (Token × Nat) × Nat} {m : CharacterMention} (mem : m ∈ mentions) :
    m ∈ addTokenMention lex mentions entry := by
  obtain same | ⟨kind, -, -, same⟩ := addTokenMention_cases lex mentions entry
  · rw [same]
    exact mem
  · rw [same]
    exact List.mem_append_left _ mem

/-- The entity mention of a person is one of the character mentions. -/
theorem Document.nameMention_mem_characterMentions {doc : Document} {lex : Lexicon}
    {e : EntityMention} (mem : e ∈ doc.entities) (person : e.isPerson = true) :
    nameMention lex e ∈ doc.characterMentions lex := by
  rw [characterMentions, List.mem_mergeSort]
  refine List.foldlRecOn (motive := fun mentions => nameMention lex e ∈ mentions) _ _ ?_
    fun _ mem _ _ => mem_addTokenMention_of_mem mem
  exact List.mem_map_of_mem (List.mem_filter.mpr ⟨mem, person⟩)

namespace Context

variable {ctx : Context}

/-- The characters that the names in a document name, once for each name. -/
def namings (ctx : Context) : List Character :=
  (ctx.mentions.filter fun m => m.kind == .name).filterMap fun m => ctx.characterFor? m.text

theorem find?_frequencies (ctx : Context) (name : String) :
    (ctx.frequencies.find? name).getD 0 = (ctx.namings.map Character.name).count name := by
  have counted := getD_find?_foldl_insert ctx.namings {} name
  rw [Table.find?_empty, Option.getD_none, Nat.zero_add] at counted
  exact counted

/-- A name that finds a character counts for it. -/
theorem frequencies_pos {m : CharacterMention} (mem : m ∈ ctx.mentions) (isName : m.kind = .name)
    {c : Character} (found : ctx.characterFor? m.text = some c) :
    0 < (ctx.frequencies.find? c.name).getD 0 := by
  rw [find?_frequencies, List.count_pos_iff]
  refine List.mem_map_of_mem (List.mem_filterMap.mpr ⟨m, ?_, found⟩)
  exact List.mem_filter.mpr ⟨mem, beq_iff_eq.mpr isName⟩

end Context

namespace Scene

variable {S : Type} {sc : Scene S}

theorem majority?_isSome (named : sc.context.NamesKnown) {m : CharacterMention}
    (mem : m ∈ sc.context.mentions) (isName : m.kind = .name) : sc.majority?.isSome := by
  obtain ⟨c, found⟩ := Option.isSome_iff_exists.mp (named m mem isName)
  have listed := Context.mem_of_characterFor? found
  have counts := Context.frequencies_pos mem isName found
  rw [majority?, Option.isSome_map, Option.isSome_iff_ne_none, Ne, best?_eq_none_iff]
  refine List.ne_nil_of_mem (List.mem_filter.mpr ⟨List.mem_map_of_mem listed, ?_⟩)
  exact decide_eq_true counts

end Scene

namespace Chain

variable {S : Type}

/-- A sieve with an answer for every quotation of whatever scene it meets leaves none empty. -/
theorem part?_isSome_of_mem_run {σ β : Type} {c : Chain S σ β} {sieves : List σ} {sc : Scene S}
    {sieve : σ} (listed : sieve ∈ sieves)
    (answers : ∀ sc', OnlyQuotes sc sc' → ∀ i, i < sc'.doc.quotes.length →
      (c.answer? sieve sc' i).isSome) :
    ∀ q ∈ (c.run sc sieves).doc.quotes, (c.part? q).isSome := by
  intro q mem
  obtain ⟨i, here⟩ := List.getElem?_of_mem mem
  rw [quote_run] at here
  obtain ⟨q', there, rfl⟩ := Option.map_eq_some_iff.mp here
  have first : c.firstAnswer? sc i sieves ≠ none := by
    intro silent
    obtain ⟨before, after, split⟩ := List.append_of_mem listed
    have turn := onlyQuotes_turn (c := c) sc before sieve i
    have inside : i < (c.turn sc before sieve i).doc.quotes.length := by
      rw [turn.length]
      exact (List.getElem?_eq_some_iff.mp there).1
    have answer := answers _ turn i inside
    rw [(firstAnswer?_eq_none_iff sc i sieves).mp silent before sieve after split] at answer
    cases answer
  rw [part?_settle, Option.isSome_or, Option.isSome_iff_ne_none.mpr first, Bool.or_true]

end Chain

namespace Document

variable {S : Type} [QuoteScorer S] {doc final : Document} {lex : Lexicon}
  {settings : AttributionSettings} {scorer? : Option S}

theorem entities_afterAttribution (outcome : doc.afterAttribution lex settings scorer? = .ok final) :
    final.entities = doc.entitiesOrDerived := by
  obtain ⟨shape, -⟩ :=
    mapM_canonicalized_eq_ok_iff.mp (afterAttribution_eq_ok_iff_passable.mp outcome).2
  rw [shape, readyForAttribution_eq]
  rfl

theorem speaker?_isSome_sieved (listed : .majority ∈ settings.speakerSieves) {e : EntityMention}
    (mem : e ∈ doc.entitiesOrDerived) (person : e.isPerson = true) :
    ∀ q ∈ (doc.sieved lex settings scorer?).doc.quotes, q.speaker?.isSome := by
  let start := doc.readyForAttribution.scene lex settings scorer?
  have before : Chain.OnlyQuotes start (Chain.mentions.run start settings.quoteSieves) :=
    Chain.onlyQuotes_run start settings.quoteSieves
  refine Chain.part?_isSome_of_mem_run (c := Chain.speakers) listed fun sc only i inside => ?_
  have context : sc.context = doc.readyForAttribution.context lex := by
    rw [(before.trans only).rest]
    rfl
  have majority : sc.majority?.isSome := by
    refine Scene.majority?_isSome (m := nameMention lex e) ?_ ?_ rfl
    · rw [context]
      exact doc.readyForAttribution.namesKnown_context lex
    · rw [context]
      refine nameMention_mem_characterMentions ?_ person
      rw [readyForAttribution_eq]
      exact mem
  show ((SpeakerSieve.majority.resolve? sc i).map _).isSome
  rw [Option.isSome_map, SpeakerSieve.resolve?, List.getElem?_eq_getElem inside]
  exact majority

/-- If no quotation comes with an attribution and the name met most often is one of the sieves, then
after an attribution either some entity mention, given or made by the tags, is a person and every
quotation has a speaker, or none is and no quotation has. -/
theorem attributeQuotes_allOrNone (unattributed : ∀ q ∈ doc.quotes, q.Unattributed)
    (listed : .majority ∈ settings.speakerSieves) :
    (doc.EntitiesInRange → doc.SubjectsFit →
      ∃ final summary, doc.attributeQuotes lex settings scorer? = .ok (final, summary)) ∧
    ∀ final summary, doc.attributeQuotes lex settings scorer? = .ok (final, summary) →
      final.entities = doc.entitiesOrDerived ∧
      ((∃ e ∈ final.entities, e.isPerson = true) ∧ (∀ q ∈ final.quotes, q.speaker?.isSome) ∨
        (∀ e ∈ final.entities, e.isPerson = false) ∧ ∀ q ∈ final.quotes, q.speaker? = none) := by
  refine ⟨fun inRange fit => ?_, fun final summary result => ?_⟩
  · obtain ⟨final, outcome⟩ := inRange.afterAttribution fit lex settings scorer?
    exact ⟨final, afterAttribution_eq_ok_iff.mp outcome⟩
  have outcome := afterAttribution_eq_ok_iff.mpr ⟨summary, result⟩
  have entities := entities_afterAttribution outcome
  refine ⟨entities, ?_⟩
  rw [entities]
  by_cases person : ∃ e ∈ doc.entitiesOrDerived, e.isPerson = true
  · refine .inl ⟨person, fun q mem => ?_⟩
    obtain ⟨e, here, isPerson⟩ := person
    obtain ⟨-, pointwise⟩ :=
      mapM_canonicalized_eq_ok_iff.mp (afterAttribution_eq_ok_iff_passable.mp outcome).2
    have kept := map_of_canonicalized (f := Quotation.speaker?) (fun _ _ => rfl) pointwise
    obtain ⟨q', there, same⟩ := List.mem_map.mp (kept ▸ List.mem_map_of_mem mem)
    rw [← same]
    exact speaker?_isSome_sieved listed here isPerson q' there
  · have nobody : ∀ e ∈ doc.entitiesOrDerived, e.isPerson = false := by
      intro e mem
      exact Bool.eq_false_iff.mpr fun isPerson => person ⟨e, mem, isPerson⟩
    refine .inr ⟨nobody, fun q mem => Option.eq_none_iff_forall_ne_some.mpr fun s spoken => ?_⟩
    obtain ⟨c, known, -⟩ := (sourced_afterAttribution unattributed outcome q mem).known s spoken
    have none : (doc.readyForAttribution.context lex).characters = [] := by
      rw [readyForAttribution_eq]
      exact charactersOf_eq_nil_iff.mpr nobody
    rw [none] at known
    cases known

/-- A quotation far from the one name in the document has that name for its speaker. -/
theorem attributeQuotes_allOrNone_joe :
    let joe := { Token.ofWord "Joe" "NNP" with ner := "PERSON" }
    let doc := ofSentences "" [
      { tokens := [Token.ofWord "\"" "``", Token.ofWord "Hi" "UH", Token.ofWord "\"" "''"] },
      { tokens := [joe, Token.ofWord "left" "VBD"] }]
    let settings := AttributionSettings.withSieves .default [.trigram] [.majority]
    let scorer? : Option Scorer := none
    (∀ q ∈ doc.quotes, q.Unattributed) ∧ .majority ∈ settings.speakerSieves ∧
      ∃ final summary, doc.attributeQuotes default settings scorer? = .ok (final, summary) ∧
        (∃ e ∈ final.entities, e.isPerson = true) ∧ (∀ q ∈ final.quotes, q.speaker?.isSome) ∧
        final.quotes.map Quotation.speaker? = [some ⟨"Joe", "maj"⟩] := by
  intro joe doc settings scorer?
  have unattributed : ∀ q ∈ doc.quotes, q.Unattributed := by
    rintro q ⟨⟩
  have listed : .majority ∈ settings.speakerSieves := by decide
  have inRange : doc.EntitiesInRange := by decide
  have fit : doc.SubjectsFit := by decide
  have all := @attributeQuotes_allOrNone Scorer _ doc default settings scorer? unattributed listed
  obtain ⟨final, summary, outcome⟩ :
      ∃ final summary, doc.attributeQuotes default settings scorer? = .ok (final, summary) :=
    all.1 inRange fit
  obtain ⟨entities, person⟩ := all.2 final summary outcome
  have found : ((doc.attributeQuotes default settings scorer?).map fun result =>
      result.1.quotes.map Quotation.speaker?) = .ok [some ⟨"Joe", "maj"⟩] := by
    decide +kernel
  rw [outcome] at found
  have speakers : final.quotes.map Quotation.speaker? = [some ⟨"Joe", "maj"⟩] :=
    Except.ok.inj found
  refine ⟨unattributed, listed, final, summary, outcome, ?_⟩
  rcases person with ⟨person, spoken⟩ | ⟨-, unspoken⟩
  · exact ⟨person, spoken, speakers⟩
  · have none := List.map_congr_left unspoken
    rw [speakers] at none
    cases quotes : final.quotes <;> rw [quotes] at none <;> cases none

end Document

end Discourse
