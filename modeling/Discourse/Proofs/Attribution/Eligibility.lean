import Discourse.Proofs.Attribution.Plain
import Discourse.Proofs.Attribution.Provenance
/-!
# Who may be chosen as the speaker

The sieve that takes the best of the names around a quotation decides on every name by itself, but it
adds up its scores by character, and a character is found under many spellings.  Who may be chosen is a
matter of characters all the same (`Scene.MaySpeak`): the sieve rules out names of characters, and as no
two characters share a name (`nodup_names_charactersOf`), whoever is ruled out under one spelling is
ruled out under all (`Scene.exists_mem_speakerCandidates_iff`).  Scores and ties choose among those who
are left, and there is a choice whenever somebody is left
(`Document.topSpeaker?_maySpeak`).
-/

namespace Discourse

/-- The mention ends before a quotation starts, or else starts behind its end, with no more than so
many tokens in between. -/
def CharacterMention.IsWithinReach (m : CharacterMention) (q : Quotation) (window : Nat) : Prop :=
  m.tokenEnd ≤ q.tokenBegin ∧ q.tokenBegin ≤ m.tokenEnd + window ∨
    q.tokenBegin < m.tokenEnd ∧ q.tokenEnd ≤ m.tokenBegin ∧ m.tokenBegin ≤ q.tokenEnd + window

theorem CharacterMention.exists_distanceTo?_iff {m : CharacterMention} {q : Quotation}
    {window : Nat} :
    (∃ distance, m.distanceTo? q = some distance ∧ distance ≤ window) ↔
      m.IsWithinReach q window := by
  unfold distanceTo? IsWithinReach
  split
  next before => simp [before, Nat.not_lt.mpr before, Nat.add_comm]
  next behind =>
    have starts : q.tokenBegin < m.tokenEnd := Nat.lt_of_not_le behind
    split
    next after => simp [behind, starts, after, Nat.add_comm]
    next overlaps => simp [behind, overlaps]

theorem Gender.excludes_eq_false_iff {demanded gender : Gender} :
    demanded.excludes gender = false ↔
      (demanded ≠ .unknown → gender = .unknown ∨ gender = demanded) := by
  cases demanded <;> cases gender <;> decide

theorem Context.eq_of_name_eq {ctx : Context} (distinct : (ctx.characters.map Character.name).Nodup)
    {c c' : Character} (mem : c ∈ ctx.characters) (mem' : c' ∈ ctx.characters)
    (same : c.name = c'.name) : c = c' :=
  List.inj_on_of_nodup_map distinct mem mem' same

namespace Scene

variable {S : Type} {sc : Scene S} {q : Quotation} {c : Character}

/-- A character may have spoken a quotation. -/
structure MaySpeak (sc : Scene S) (q : Quotation) (c : Character) : Prop where
  /-- One of its names stands in narration near the quotation. -/
  named : ∃ m ∈ sc.context.narration, m.kind = .name ∧ sc.context.characterFor? m.text = some c ∧
    m.IsWithinReach q sc.settings.window
  /-- Nobody who is addressed in the quotation is this character. -/
  unaddressed : ∀ m ∈ sc.vocatives q, sc.context.characterFor? m.text ≠ some c
  /-- A pronoun whose gender is known may stand for the character. -/
  gender : ∀ m, q.mention? = some m → m.kind = .pronoun →
    sc.lex.genderOf (Text.lower m.text) ≠ .unknown →
      c.gender = .unknown ∨ c.gender = sc.lex.genderOf (Text.lower m.text)

theorem excludes_demandedGender_eq_false_iff {gender : Gender} :
    (sc.demandedGender q).excludes gender = false ↔
      ∀ m, q.mention? = some m → m.kind = .pronoun →
        sc.lex.genderOf (Text.lower m.text) ≠ .unknown →
          gender = .unknown ∨ gender = sc.lex.genderOf (Text.lower m.text) := by
  rw [Gender.excludes_eq_false_iff, demandedGender]
  cases q.mention? with
  | none => simp
  | some m =>
    dsimp only
    split
    next pronoun => simp [pronoun]
    next other => simp [other]

/-- As the names of characters are their own, to rule out the name is to rule out the character. -/
theorem name_mem_addressed_iff (distinct : (sc.context.characters.map Character.name).Nodup)
    (mem : c ∈ sc.context.characters) :
    c.name ∈ (sc.vocatives q).filterMap (fun m => sc.characterName? m.text) ↔
      ∃ m ∈ sc.vocatives q, sc.context.characterFor? m.text = some c := by
  simp only [List.mem_filterMap, characterName?, Option.map_eq_some_iff]
  constructor
  · rintro ⟨m, addressed, c', found, same⟩
    have mem' := Context.mem_of_characterFor? found
    exact ⟨m, addressed, Context.eq_of_name_eq distinct mem' mem same ▸ found⟩
  · rintro ⟨m, addressed, found⟩
    exact ⟨m, addressed, c, found, rfl⟩

/-- The candidates are the names of the characters that may have spoken. -/
theorem exists_mem_speakerCandidates_iff
    (distinct : (sc.context.characters.map Character.name).Nodup) :
    (∃ found, (c, found) ∈ sc.speakerCandidates q) ↔ sc.MaySpeak q c := by
  constructor
  · rintro ⟨⟨distance, m⟩, candidate⟩
    obtain ⟨near, isName, found, unaddressed, gender⟩ := mem_speakerCandidates_iff.mp candidate
    obtain ⟨narrated, away, close⟩ := mem_nearby_iff.mp near
    refine ⟨⟨m, narrated, isName, found, ?_⟩, fun m' addressed found' => unaddressed ?_, ?_⟩
    · exact CharacterMention.exists_distanceTo?_iff.mp ⟨distance, away, close⟩
    · exact (name_mem_addressed_iff distinct (Context.mem_of_characterFor? found)).mpr
        ⟨m', addressed, found'⟩
    · exact excludes_demandedGender_eq_false_iff.mp gender
  · rintro ⟨⟨m, narrated, isName, found, reach⟩, unaddressed, gender⟩
    obtain ⟨distance, away, close⟩ := CharacterMention.exists_distanceTo?_iff.mpr reach
    refine ⟨(distance, m), mem_speakerCandidates_iff.mpr ⟨?_, isName, found, fun listed => ?_, ?_⟩⟩
    · exact mem_nearby_iff.mpr ⟨narrated, away, close⟩
    · obtain ⟨m', addressed, found'⟩ :=
        (name_mem_addressed_iff distinct (Context.mem_of_characterFor? found)).mp listed
      exact unaddressed m' addressed found'
    · exact excludes_demandedGender_eq_false_iff.mpr gender

/-- Somebody is chosen whenever there is a candidate. -/
theorem topSpeaker?_isSome_iff :
    (∃ name, sc.topSpeaker? q = some name) ↔ ∃ c found, (c, found) ∈ sc.speakerCandidates q := by
  rw [← Option.isSome_iff_exists, Option.isSome_iff_ne_none, Ne, topSpeaker?_eq_none_iff]
  constructor
  · intro some
    obtain ⟨⟨c, found⟩, candidate⟩ := List.exists_mem_of_ne_nil _ some
    exact ⟨c, found, candidate⟩
  · rintro ⟨c, found, candidate⟩
    exact List.ne_nil_of_mem candidate

end Scene

namespace Document

variable {S : Type}

/-- The sieve chooses somebody exactly if a character may have spoken the quotation, and then it chooses
one of those who may. -/
theorem topSpeaker?_maySpeak (doc : Document) (lex : Lexicon) (settings : AttributionSettings)
    (scorer? : Option S) (q : Quotation) :
    let sc := doc.scene lex settings scorer?
    ((∃ name, sc.topSpeaker? q = some name) ↔ ∃ c, sc.MaySpeak q c) ∧
      ∀ name, sc.topSpeaker? q = some name → ∃ c, sc.MaySpeak q c ∧ c.name = name := by
  intro sc
  have distinct : (sc.context.characters.map Character.name).Nodup :=
    nodup_names_charactersOf lex doc.entities
  constructor
  · rw [Scene.topSpeaker?_isSome_iff]
    exact exists_congr fun c => Scene.exists_mem_speakerCandidates_iff distinct
  · intro name chosen
    obtain ⟨⟨c, found⟩, candidate, named⟩ := Scene.exists_mem_speakerCandidates_of_topSpeaker? chosen
    exact ⟨c, (Scene.exists_mem_speakerCandidates_iff distinct).mp ⟨found, candidate⟩, named⟩

end Document

end Discourse
