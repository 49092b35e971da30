import Discourse.Proofs.Dialogue.Naming
/-!
# Speakers become mentions

What reconciling speakers with mentions does to a document in which every speaker is described by what
his text says (`Document.Reconciled`).  A described name that belongs to a mention stands for that
mention (`Document.StandsFor`), and then the id of the mention takes the place of the name, among the
speakers of the utterances and among the keys of the descriptions alike.

Several names can stand for one mention, and the id can be a key already.  The description that is kept
under the id is that of the last of the names.  It has a real name still, so that a second
reconciliation looks it up again; it finds the mention that it found before, and the key is the id of
this mention already (`DescribedByText.settled`).
-/

namespace Discourse

/-- The first value that passes a test is the one of the least key. -/
theorem Table.find?_values_eq_some_iff {α : Type} {t : Table Nat α} {p : α → Bool} {v : α} :
    t.values.find? p = some v ↔
      ∃ k, t.find? k = some v ∧ p v = true ∧
        ∀ k' v', t.find? k' = some v' → p v' = true → k ≤ k' := by
  have least : ∀ {v}, t.values.find? p = some v → ∃ k, t.find? k = some v ∧ p v = true ∧
      ∀ k' v', t.find? k' = some v' → p v' = true → k ≤ k' := by
    intro v found
    obtain ⟨passes, front, back, split, fails⟩ := List.find?_eq_some_iff_append.mp found
    obtain ⟨front, tail, entries, rfl, behind⟩ := List.map_eq_append_iff.mp split
    obtain ⟨⟨k, v⟩, back, rfl, rfl, rfl⟩ := List.map_eq_cons_iff.mp behind
    have here : (k, v) ∈ t.entries := entries ▸ List.mem_append_right front List.mem_cons_self
    refine ⟨k, (t.mem_entries_iff k v).mp here, passes, fun k' v' found' passes' => ?_⟩
    have mem := (t.mem_entries_iff k' v').mpr found'
    have ascends := t.sorted
    rw [entries] at mem ascends
    rcases List.mem_append.mp mem with earlier | later
    · have failed := fails v' (List.mem_map_of_mem earlier)
      rw [passes'] at failed
      cases failed
    · rcases List.mem_cons.mp later with same | later
      · cases same
        exact Nat.le_refl k
      · have behind := (List.pairwise_cons.mp (List.pairwise_append.mp ascends).2.1).1
        exact Nat.le_of_lt (Nat.blt_eq.mp (behind _ later))
  refine ⟨least, ?_⟩
  rintro ⟨k, found, passes, smallest⟩
  have listed : v ∈ t.values := List.mem_map_of_mem ((t.mem_entries_iff k v).mpr found)
  obtain ⟨v', first⟩ := Option.isSome_iff_exists.mp
    (List.find?_isSome.mpr ⟨v, listed, passes⟩)
  obtain ⟨k', found', passes', smallest'⟩ := least first
  have same : k = k' := Nat.le_antisymm (smallest k' v' found' passes') (smallest' k v found passes)
  rw [← same, found] at found'
  rw [first, ← found']

theorem Table.find?_values_eq_none_iff {α : Type} {t : Table Nat α} {p : α → Bool} :
    t.values.find? p = none ↔ ∀ k v, t.find? k = some v → p v = false := by
  rw [List.find?_eq_none]
  constructor
  · intro none k v found
    have listed : v ∈ t.values := List.mem_map_of_mem ((t.mem_entries_iff k v).mpr found)
    exact Bool.eq_false_iff.mpr (none v listed)
  · intro none v listed
    obtain ⟨⟨k, v⟩, entry, rfl⟩ := List.mem_map.mp listed
    exact Bool.eq_false_iff.mp (none k v ((t.mem_entries_iff k v).mp entry))

/-- Values that are not changed leave the table as it is. -/
theorem Table.mapValues_eq_self {κ α : Type} [KeyOrder κ] [DecidableEq κ] {t : Table κ α}
    {f : α → α} (keeps : ∀ k v, t.find? k = some v → f v = v) : t.mapValues f = t := by
  refine Table.ext_find? fun k => ?_
  rw [mapValues, find?_mapEntries]
  cases found : t.find? k with
  | none => rfl
  | some v => rw [Option.map_some, keeps k v found]

namespace Document

variable {doc d : Document} {info : SpeakerInfo} {name s : String} {id : MentionId}

/-! ## The mention of a name -/

/-- The predicted mention of the least id that passes a test. -/
def IsLeastWhere (doc : Document) (p : Mention → Bool) (m : Mention) : Prop :=
  ∃ id, doc.mentions.find? id = some m ∧ p m = true ∧
    ∀ id' m', doc.mentions.find? id' = some m' → p m' = true → id ≤ id'

/-- The mention that a speaker's name belongs to: the least one that it matches strictly, or the least
one that it matches loosely if it matches none strictly. -/
def IsNamesake (doc : Document) (info : SpeakerInfo) (m : Mention) : Prop :=
  doc.IsLeastWhere (Mention.matchesStrictly · info) m ∨
    (∀ id m', doc.mentions.find? id = some m' → m'.matchesStrictly info = false) ∧
      doc.IsLeastWhere (Mention.matchesLoosely · info) m

/-- A described speaker has a real name, and it belongs to a mention of this id. -/
def StandsFor (doc : Document) (name : String) (id : MentionId) : Prop :=
  ∃ info, doc.speakerInfo.find? name = some info ∧ info.hasRealName = true ∧
    ∃ m, doc.IsNamesake info m ∧ m.id = id

/-- The text that takes the place of a speaker's: the id of the mention that he stands for, or his own
text if he stands for none. -/
inductive Replaced (doc : Document) : String → String → Prop
  | mention {name : String} {id : MentionId} : doc.StandsFor name id →
      Replaced doc name (toString id)
  | kept {name : String} : (∀ id, ¬doc.StandsFor name id) → Replaced doc name name

theorem mentionOfName?_eq_some_iff {m : Mention} :
    doc.mentionOfName? info = some m ↔ doc.IsNamesake info m := by
  rw [mentionOfName?, Option.orElse_eq_orElse, Option.orElse_eq_or, Option.or_eq_some_iff,
    Table.find?_values_eq_some_iff, Table.find?_values_eq_none_iff, Table.find?_values_eq_some_iff]
  rfl

theorem standsFor_iff : doc.StandsFor name id ↔ (name, id) ∈ doc.nameConversions := by
  rw [mem_nameConversions_iff]
  simp only [mentionOfName?_eq_some_iff]
  rfl

theorem not_standsFor_iff :
    (∀ id, ¬doc.StandsFor name id) ↔ name ∉ doc.nameConversions.map Prod.fst := by
  simp only [standsFor_iff, List.mem_map, Prod.exists, exists_and_right, exists_eq_right, not_exists]

theorem convertedText_eq_iff_replaced : doc.convertedText name = s ↔ doc.Replaced name s := by
  rw [convertedText_eq_iff]
  constructor
  · rintro (⟨id, mem, rfl⟩ | ⟨kept, rfl⟩)
    · exact .mention (standsFor_iff.mpr mem)
    · exact .kept (not_standsFor_iff.mpr kept)
  · intro replaced
    cases replaced with
    | mention stands => exact .inl ⟨_, standsFor_iff.mp stands, rfl⟩
    | kept none => exact .inr ⟨not_standsFor_iff.mp none, rfl⟩

/-! ## A second time -/

theorem identified_identified (doc : Document) (info : SpeakerInfo) (id : MentionId) :
    doc.identified (doc.identified info id) id = doc.identified info id := by
  have listed : id ∈ (info.mentions.insert id).toList := (KeySet.mem_insert _ _ _).mpr (.inl rfl)
  simp only [identified, KeySet.insert_of_mem listed]
  split <;> simp_all

/-- A move of an entry to where it is changes nothing, if the mention is recorded already. -/
theorem rekey_eq_self {known : Table String SpeakerInfo} {entry : String × MentionId}
    (key : entry.1 = toString entry.2) (found : known.find? entry.1 = some info)
    (recorded : doc.identified info entry.2 = info) : doc.rekey known entry = known := by
  refine Table.ext_find? fun s => ?_
  rw [doc.find?_rekey found, recorded, ← key]
  split
  next same => rw [same, found]
  next => rfl

theorem foldl_rekey_eq_self {known : Table String SpeakerInfo} {conversions : List (String × MentionId)}
    (settled : ∀ entry ∈ conversions, doc.rekey known entry = known) :
    conversions.foldl doc.rekey known = known := by
  induction conversions with
  | nil => rfl
  | cons entry rest ih =>
    obtain ⟨first, settled⟩ := List.forall_mem_cons.mp settled
    rw [List.foldl_cons, first, ih settled]

/-- What is still converted after the reconciliation is the description kept under an id, and it is
converted to this id. -/
theorem DescribedByText.of_mem_nameConversions (plain : doc.DescribedByText)
    (mem : (name, id) ∈ doc.reconcileSpeakers.nameConversions) :
    name = toString id ∧ ∃ info, doc.reconcileSpeakers.speakerInfo.find? name = some info ∧
      doc.identified info id = info := by
  obtain ⟨info, found, real, m, named, rfl⟩ := mem_nameConversions_iff.mp mem
  have here := found
  rw [plain.find?_speakerInfo] at found
  split at found
  next entry moved =>
    have listed := List.mem_reverse.mp (List.mem_of_find?_eq_some moved)
    have same := List.find?_some moved
    have key : toString entry.2 = name := beq_iff_eq.mp same
    obtain ⟨before, described, -, m', named', known⟩ := mem_nameConversions_iff.mp listed
    rw [described, Option.map_some, Option.some.injEq] at found
    subst found
    -- the same name is searched among the same mentions
    have named : doc.mentionOfName? before = some m := named
    obtain rfl := Option.some.inj (named'.symm.trans named)
    rw [known]
    exact ⟨key.symm, _, here, doc.identified_identified before entry.2⟩
  next unmoved =>
    split at found
    next => cases found
    next kept =>
      have converted : (name, m.id) ∈ doc.nameConversions :=
        mem_nameConversions_iff.mpr ⟨info, found, real, m, named, rfl⟩
      exact absurd (List.mem_map_of_mem converted) kept

/-- A second reconciliation changes nothing. -/
theorem DescribedByText.settled (plain : doc.DescribedByText) :
    doc.reconcileSpeakers.reconcileSpeakers = doc.reconcileSpeakers := by
  have again : ∀ entry ∈ doc.reconcileSpeakers.nameConversions,
      doc.reconcileSpeakers.rekey doc.reconcileSpeakers.speakerInfo entry =
        doc.reconcileSpeakers.speakerInfo := by
    intro entry mem
    obtain ⟨key, info, found, recorded⟩ := plain.of_mem_nameConversions mem
    exact rekey_eq_self key found recorded
  have spoken : doc.reconcileSpeakers.speakers.mapValues doc.reconcileSpeakers.convertedText =
      doc.reconcileSpeakers.speakers := by
    refine Table.mapValues_eq_self fun utterance name _ => ?_
    rw [convertedText_eq_iff]
    by_cases converted : name ∈ doc.reconcileSpeakers.nameConversions.map Prod.fst
    · obtain ⟨⟨name, id⟩, mem, rfl⟩ := List.mem_map.mp converted
      exact .inl ⟨id, mem, (plain.of_mem_nameConversions mem).1.symm⟩
    · exact .inr ⟨converted, rfl⟩
  have described := foldl_rekey_eq_self again
  generalize doc.reconcileSpeakers = d at *
  calc d.reconcileSpeakers
      = { d with
          speakers := d.speakers.mapValues d.convertedText
          speakerInfo := d.nameConversions.foldl d.rekey d.speakerInfo } := rfl
    _ = d := by rw [spoken, described]

/-! ## The whole reconciliation -/

theorem pairwise_nameConversions (doc : Document) :
    doc.nameConversions.Pairwise fun e f => KeyOrder.before e.1 f.1 = true := by
  refine List.pairwise_filterMap.mpr (doc.speakerInfo.sorted.imp fun {e f} before a mem b mem' => ?_)
  obtain ⟨-, named⟩ := Option.ite_none_right_eq_some.mp mem
  obtain ⟨-, named'⟩ := Option.ite_none_right_eq_some.mp mem'
  obtain ⟨m, -, rfl⟩ := Option.map_eq_some_iff.mp named
  obtain ⟨m', -, rfl⟩ := Option.map_eq_some_iff.mp named'
  exact before

/-- A reconciled document: names have become the ids of the mentions they stand for. -/
structure Reconciled (doc d : Document) : Prop where
  /-- Only speakers and their descriptions are written. -/
  rest : d = { doc with speakers := d.speakers, speakerInfo := d.speakerInfo }
  speakers : ∀ utterance s, d.speakers.find? utterance = some s ↔
    ∃ name, doc.speakers.find? utterance = some name ∧ doc.Replaced name s
  /-- The keys are replaced as the speakers are. -/
  keys : ∀ s, d.speakerInfo.contains s = true ↔
    ∃ name, doc.speakerInfo.contains name = true ∧ doc.Replaced name s
  /-- A mention is recorded in what is known of it as a speaker, which is the description of the last of
  the names that stand for it. -/
  recorded : ∀ name id, doc.StandsFor name id → ∃ last info, doc.StandsFor last id ∧
    (∀ other, doc.StandsFor other id → other = last ∨ KeyOrder.before other last = true) ∧
    d.speakerInfo.find? (toString id) = some info ∧ id ∈ info.mentions.toList ∧
    info = doc.identified (.ofSpeaker last) id
  /-- Other descriptions stay, unless a mention takes their place. -/
  others : ∀ name info, doc.speakerInfo.find? name = some info → (∀ id, ¬doc.StandsFor name id) →
    (∀ other id, doc.StandsFor other id → toString id ≠ name) →
    d.speakerInfo.find? name = some info
  /-- A second reconciliation changes nothing. -/
  settled : d.reconcileSpeakers = d

/-- The mention that a name stands for is described under its id by the last of its names. -/
theorem DescribedByText.find?_of_standsFor (plain : doc.DescribedByText)
    (stands : doc.StandsFor name id) :
    ∃ last, doc.StandsFor last id ∧
      (∀ other, doc.StandsFor other id → other = last ∨ KeyOrder.before other last = true) ∧
      doc.reconcileSpeakers.speakerInfo.find? (toString id) =
        some (doc.identified (.ofSpeaker last) id) := by
  have listed := List.mem_reverse.mpr (standsFor_iff.mp stands)
  have ordered := List.pairwise_reverse.mpr doc.pairwise_nameConversions
  have renamed : (doc.nameConversions.reverse.find? fun entry => toString entry.2 == toString id).isSome :=
    List.find?_isSome.mpr ⟨_, listed, beq_self_eq_true _⟩
  obtain ⟨⟨last, id'⟩, moved⟩ := Option.isSome_iff_exists.mp renamed
  have found := plain.find?_speakerInfo (toString id)
  rw [moved] at found
  obtain ⟨same, front, back, split, later⟩ := List.find?_eq_some_iff_append.mp moved
  obtain rfl : id' = id := toString_eq_iff.mp (beq_iff_eq.mp same)
  have mem : (last, id') ∈ doc.nameConversions :=
    List.mem_reverse.mp (split ▸ List.mem_append_right front List.mem_cons_self)
  refine ⟨last, standsFor_iff.mpr mem, fun other stands' => ?_, ?_⟩
  · have mem' := List.mem_reverse.mpr (standsFor_iff.mp stands')
    rw [split] at mem' ordered
    rcases List.mem_append.mp mem' with behind | mem'
    · simpa using later _ behind
    · rcases List.mem_cons.mp mem' with same | before
      · exact .inl (congrArg Prod.fst same)
      · exact .inr ((List.pairwise_cons.mp (List.pairwise_append.mp ordered).2.1).1 _ before)
  · obtain ⟨info, described, -⟩ := mem_nameConversions_iff.mp mem
    rw [found]
    dsimp only
    rw [described, plain _ _ described, Option.map_some]

/-- Reconciling speakers with mentions puts the ids of mentions in the place of names. -/
theorem reconcileSpeakers_reconciled (plain : doc.DescribedByText) :
    Reconciled doc doc.reconcileSpeakers where
  rest := rfl
  speakers utterance s := by
    have renamed : doc.reconcileSpeakers.speakers = doc.speakers.mapValues doc.convertedText := rfl
    rw [renamed, Table.mapValues, Table.find?_mapEntries, Option.map_eq_some_iff]
    simp only [convertedText_eq_iff_replaced]
  keys s := by
    rw [plain.contains_speakerInfo_iff]
    simp only [convertedText_eq_iff_replaced]
  recorded name id stands := by
    obtain ⟨last, stands', latest, found⟩ := plain.find?_of_standsFor stands
    exact ⟨last, _, stands', latest, found, (KeySet.mem_insert _ _ _).mpr (.inl rfl), rfl⟩
  others name info found unnamed untaken := by
    have unmoved :
        doc.nameConversions.reverse.find? (fun entry => toString entry.2 == name) = none := by
      refine List.find?_eq_none.mpr fun entry mem same => ?_
      exact untaken entry.1 entry.2 (standsFor_iff.mpr (List.mem_reverse.mp mem)) (beq_iff_eq.mp same)
    rw [plain.find?_speakerInfo, unmoved]
    exact (if_neg (not_standsFor_iff.mp unnamed)).trans found
  settled := plain.settled

/-- Two names stand for Joe, whose id is a key already, and one for nobody. -/
theorem reconcileSpeakers_reconciled_joe :
    let joe : Mention :=
      { id := 0, sentence := 0, start := 0, stop := 1, head := 0, text := "Joe", type := .proper }
    let ann : Mention := { id := 1, sentence := 0, start := 1, stop := 2, head := 1, text := "Ann" }
    let names := ["Joe Smith", "0", "Ann", "Zoe", "joe, NBC"]
    let doc : Document :=
      { ((ofSentences "" []).addMention joe).addMention ann with
        speakers := .ofList (names.zipIdx.map fun (name, utterance) => (utterance, name))
        speakerInfo := .ofList (names.map fun name => (name, .ofSpeaker name)) }
    let d := doc.reconcileSpeakers
    doc.DescribedByText ∧ d.speakers.values = ["0", "0", "1", "Zoe", "0"] ∧
      d.speakerInfo.entries.map (fun e => (e.1, e.2.id, e.2.mentions.toList)) =
        [("0", "joe, NBC", [0]), ("1", "Ann", [1]), ("Zoe", "Zoe", [])] ∧
      Reconciled doc d := by
  intro joe ann names doc d
  have plain : doc.DescribedByText := by
    intro s info found
    have each : ∀ entry ∈ doc.speakerInfo.entries, entry.2 = .ofSpeaker entry.1 := by
      decide +kernel
    exact each _ ((Table.mem_entries_iff _ _ _).mpr found)
  exact ⟨plain, by decide +kernel, by decide +kernel, reconcileSpeakers_reconciled plain⟩

end Document

end Discourse
