import Discourse.Proofs.Attribution.Entities
import Discourse.Proofs.Attribution.Readiness
import Discourse.Proofs.Text.Words
/-!
# The cast of a document

The character mentions of a document are the entity mentions of its people and single tokens that
stand for someone (`mem_characterMentions_cases`).  A name has its character, which it finds under
exactly that name before words that names share come into question (`namesKnown_context`).  The
mentions begin inside the document, so that the context tells for each whether it lies in a
quotation (`not_containsToken_of_inQuote_eq_false`).
-/

namespace Discourse

/-! ## Names and their characters -/

section Characters

variable {lex : Lexicon} {characters : List Character} {entities : List EntityMention}
  {e : EntityMention}

theorem mem_addCharacter {c : Character} (mem : c ∈ characters) :
    c ∈ addCharacter lex characters e := by
  rw [addCharacter]
  split
  · exact mem
  · exact List.mem_append_left _ mem

theorem exists_mem_addCharacter :
    ∃ c ∈ addCharacter lex characters e, c.name = Text.squeeze e.text := by
  rw [addCharacter]
  split
  next known =>
    obtain ⟨c, mem, same⟩ := List.any_eq_true.mp known
    exact ⟨c, mem, beq_iff_eq.mp same⟩
  next => exact ⟨_, List.mem_append_right _ List.mem_cons_self, rfl⟩

theorem mem_foldl_addCharacter {c : Character} (mem : c ∈ characters) :
    c ∈ entities.foldl (addCharacter lex) characters :=
  List.foldlRecOn (motive := fun now => c ∈ now) entities _ mem
    fun _ mem _ _ => mem_addCharacter mem

/-- Every entity mention of a person has made a character of its name. -/
theorem exists_mem_charactersOf (lex : Lexicon) (mem : e ∈ entities) (person : e.isPerson = true) :
    ∃ c ∈ charactersOf lex entities, c.name = Text.squeeze e.text := by
  obtain ⟨before, after, split⟩ := List.append_of_mem (List.mem_filter.mpr ⟨mem, person⟩)
  rw [charactersOf, split, List.foldl_append, List.foldl_cons]
  obtain ⟨c, made, named⟩ := exists_mem_addCharacter
  exact ⟨c, mem_foldl_addCharacter made, named⟩

theorem nodup_names_addCharacter (distinct : (characters.map Character.name).Nodup) :
    ((addCharacter lex characters e).map Character.name).Nodup := by
  rw [addCharacter]
  split
  · exact distinct
  next unknown =>
    rw [List.map_append, List.map_singleton, List.nodup_append]
    refine ⟨distinct, List.nodup_singleton _, fun name mem other new same => unknown ?_⟩
    obtain ⟨c, listed, rfl⟩ := List.mem_map.mp mem
    exact List.any_eq_true.mpr
      ⟨c, listed, beq_iff_eq.mpr (same.trans (List.mem_singleton.mp new))⟩

/-- No two characters have the same name. -/
theorem nodup_names_charactersOf (lex : Lexicon) (entities : List EntityMention) :
    ((charactersOf lex entities).map Character.name).Nodup :=
  List.foldlRecOn (motive := fun cs : List Character => (cs.map Character.name).Nodup) _ _
    List.nodup_nil fun _ distinct _ _ => nodup_names_addCharacter distinct

end Characters

namespace Context

/-- Every character mention that is a name names a character. -/
def NamesKnown (ctx : Context) : Prop :=
  ∀ c ∈ ctx.mentions, c.kind = .name → (ctx.characterFor? c.text).isSome

/-- A character is found under its own name. -/
theorem characterFor?_squeeze {ctx : Context} {c : Character} {text : String}
    (mem : c ∈ ctx.characters) (named : c.name = Text.squeeze text) :
    (ctx.characterFor? (Text.squeeze text)).isSome := by
  have exact : (ctx.characters.find? fun c =>
      Text.equalFold c.name (Text.squeeze (Text.squeeze text))).isSome := by
    refine List.find?_isSome.mpr ⟨c, mem, ?_⟩
    rw [named, Text.squeeze_squeeze]
    exact Text.equalFold_refl _
  obtain ⟨found, here⟩ := Option.isSome_iff_exists.mp exact
  rw [characterFor?, here]
  rfl

end Context

/-! ## Where character mentions come from -/

/-- A token by itself is no name. -/
theorem Token.characterKind?_ne_name {lex : Lexicon} {t : Token} :
    t.characterKind? lex ≠ some .name := by
  rw [characterKind?]
  split
  · decide
  · split
    · decide
    · decide

/-- A token that no mention covers may become one. -/
theorem addTokenMention_cases (lex : Lexicon) (mentions : List CharacterMention)
    (entry : (Token × Nat) × Nat) :
    addTokenMention lex mentions entry = mentions ∨
      ∃ kind, entry.1.1.characterKind? lex = some kind ∧
        (∀ m ∈ mentions, m.covers entry.2 = false) ∧
        addTokenMention lex mentions entry = mentions ++ [⟨entry.1.1.word, entry.2, entry.2 + 1,
          entry.1.2, kind, lex.genderOf entry.1.1.word⟩] := by
  unfold addTokenMention
  dsimp only
  split
  next => exact .inl rfl
  next uncovered =>
    split
    next => exact .inl rfl
    next kind stands =>
      refine .inr ⟨kind, stands, fun m mem => ?_, rfl⟩
      exact Bool.eq_false_iff.mpr fun covers => uncovered (List.any_eq_true.mpr ⟨m, mem, covers⟩)

theorem mem_addTokenMention {lex : Lexicon} {mentions : List CharacterMention}
    {entry : (Token × Nat) × Nat} {m : CharacterMention}
    (mem : m ∈ addTokenMention lex mentions entry) :
    m ∈ mentions ∨ m.kind ≠ .name ∧ m.tokenBegin = entry.2 := by
  obtain same | ⟨kind, stands, -, same⟩ := addTokenMention_cases lex mentions entry
  · rw [same] at mem
    exact .inl mem
  · rw [same] at mem
    rcases List.mem_append.mp mem with old | new
    · exact .inl old
    · obtain rfl := List.mem_singleton.mp new
      refine .inr ⟨?_, rfl⟩
      rintro rfl
      exact Token.characterKind?_ne_name stands

namespace Document

variable {doc : Document} {lex : Lexicon} {m : CharacterMention}

theorem map_fst_tokensWithSentences (doc : Document) :
    doc.tokensWithSentences.map Prod.fst = doc.tokens := by
  rw [tokensWithSentences, List.map_flatMap, tokens, ← List.zipIdx_map_fst 0 doc.sentences,
    List.flatMap_map, List.zipIdx_map_fst]
  refine congrArg List.flatten (List.map_congr_left fun entry _ => ?_)
  dsimp only
  rw [List.map_map]
  exact List.map_id entry.1.tokens

theorem length_tokensWithSentences (doc : Document) :
    doc.tokensWithSentences.length = doc.tokenCount := by
  rw [← List.length_map Prod.fst, map_fst_tokensWithSentences]
  exact length_flatMap_tokens doc.sentences

theorem mem_characterMentions_cases (mem : m ∈ doc.characterMentions lex) :
    (∃ e ∈ doc.entities, e.isPerson = true ∧ m = nameMention lex e) ∨
      m.kind ≠ .name ∧ m.tokenBegin < doc.tokenCount := by
  rw [characterMentions, List.mem_mergeSort] at mem
  refine List.foldlRecOn (motive := fun mentions => ∀ m ∈ mentions,
    (∃ e ∈ doc.entities, e.isPerson = true ∧ m = nameMention lex e) ∨
      m.kind ≠ .name ∧ m.tokenBegin < doc.tokenCount) doc.tokensWithSentences.zipIdx _
    ?_ ?_ m mem
  · intro m mem
    obtain ⟨e, person, rfl⟩ := List.mem_map.mp mem
    obtain ⟨mem, person⟩ := List.mem_filter.mp person
    exact .inl ⟨e, mem, person, rfl⟩
  · intro mentions all entry there m mem
    rcases mem_addTokenMention mem with old | ⟨nameless, starts⟩
    · exact all m old
    · refine .inr ⟨nameless, ?_⟩
      obtain ⟨inside, -⟩ := List.getElem?_eq_some_iff.mp (List.mem_zipIdx_iff_getElem?.mp there)
      rw [starts, ← length_tokensWithSentences]
      exact inside

/-- Every name among the character mentions finds a character. -/
theorem namesKnown_context (doc : Document) (lex : Lexicon) : (doc.context lex).NamesKnown := by
  intro m mem isName
  rcases mem_characterMentions_cases mem with ⟨e, here, person, rfl⟩ | ⟨nameless, -⟩
  · obtain ⟨c, made, named⟩ := exists_mem_charactersOf lex here person
    exact Context.characterFor?_squeeze made named
  · exact absurd isName nameless

/-! ## Beginning inside the document -/

/-- Every entity mention begins inside the document. -/
def EntitiesBeginInside (doc : Document) : Prop :=
  ∀ e ∈ doc.entities, e.tokenBegin < doc.tokenCount

theorem EntitiesBeginInside.characterMentions (inside : doc.EntitiesBeginInside)
    (mem : m ∈ doc.characterMentions lex) : m.tokenBegin < doc.tokenCount := by
  rcases mem_characterMentions_cases mem with ⟨e, here, -, rfl⟩ | ⟨-, begins⟩
  · exact inside e here
  · exact begins

theorem lt_tokenCount_of_mem_entityMentions {e : EntityMention} (mem : e ∈ doc.entityMentions) :
    e.tokenBegin < doc.tokenCount := by
  obtain ⟨i, e', here, rfl⟩ := exists_of_mem_linkCanonical mem
  obtain ⟨s, sentence, -, nonempty, ends⟩ :=
    (mem_tagRuns_iff.mp (List.mem_of_getElem? here)).1.bounds
  have inside := offset_add_length_le sentence
  show e'.tokenBegin < doc.tokenCount
  omega

theorem SameText.tokenCount {doc doc' : Document} (same : doc.SameText doc') :
    doc'.tokenCount = doc.tokenCount := by
  have lengths := congrArg List.length same.tokens
  rw [List.length_map, List.length_map] at lengths
  rw [Document.tokenCount, Document.tokenCount, ← length_flatMap_tokens,
    ← length_flatMap_tokens]
  exact lengths

/-- Entity mentions that are found begin inside the document like those that were given. -/
theorem EntitiesBeginInside.readyForAttribution (inside : doc.EntitiesBeginInside) :
    doc.readyForAttribution.EntitiesBeginInside := by
  intro e mem
  rw [doc.sameText_readyForAttribution.tokenCount]
  have listed : e ∈ doc.entitiesOrDerived := by
    rw [readyForAttribution_eq] at mem
    exact mem
  rw [entitiesOrDerived] at listed
  split at listed
  · exact lt_tokenCount_of_mem_entityMentions listed
  · exact inside e listed

/-! ## Tokens in quotations -/

theorem not_containsToken_of_quoteAt?_eq_none {quotes : List Quotation} {token : Nat}
    (none : quoteAt? quotes token = none) : ∀ q ∈ quotes, q.containsToken token = false := by
  intro q mem
  rw [quoteAt?, List.getLast?_eq_none_iff, List.map_eq_nil_iff, List.filter_eq_nil_iff] at none
  obtain ⟨i, here⟩ := List.getElem?_of_mem mem
  exact Bool.eq_false_iff.mpr (none (q, i) (List.mem_zipIdx_iff_getElem?.mpr here))

/-- A token of the document that counts as outside every quotation is in none. -/
theorem not_containsToken_of_inQuote_eq_false {lex : Lexicon} {token : Nat}
    (inside : token < doc.tokenCount) (outside : (doc.context lex).inQuote token = false) :
    ∀ q ∈ doc.quotes, q.containsToken token = false := by
  refine not_containsToken_of_quoteAt?_eq_none ?_
  rw [Context.inQuote, context, List.getElem?_map, List.getElem?_range inside] at outside
  simpa using outside

end Document

end Discourse
