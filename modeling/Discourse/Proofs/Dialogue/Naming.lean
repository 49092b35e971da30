import Discourse.Dialogue.Reconciliation
import Mathlib.Data.List.Induction
/-!
# Names and mention ids

A mention id written as a text is never a real name (`isDecimalId_of_hasRealName`), so that an entry
moved from a name to an id is not moved again, and of several names moved to one id the last is kept
(`find?_foldl_rekey`).  Hence those who are described after speakers are reconciled with mentions are
those who were described before, each under the text that stands for him then
(`DescribedByText.contains_speakerInfo_iff`).
-/

namespace Discourse

theorem isDecimalId_toString (n : Nat) : isDecimalId (toString n) = true := by
  show (!(Nat.repr n).toList.isEmpty && (Nat.repr n).toList.all Char.isDigit) = true
  rw [Nat.toList_repr, Bool.and_eq_true, List.all_eq_true, Bool.not_eq_true',
    List.isEmpty_eq_false_iff]
  refine ⟨Nat.toDigits_ne_nil, fun c mem => ?_⟩
  exact Nat.isDigit_of_mem_toDigits (by decide) (by decide) mem

/-- A number that is written out is read back. -/
theorem digitsValue_toString (n : Nat) : digitsValue (toString n).toList = n := by
  have digits : (toString n).toList = Nat.toDigits 10 n := Nat.toList_repr
  rw [digits]
  exact Nat.ofDigitChars_toDigits (by decide) (by decide)

theorem toString_eq_iff {m n : Nat} : toString m = toString n ↔ m = n := by
  refine ⟨fun same => ?_, fun same => congrArg toString same⟩
  rw [← digitsValue_toString m, same, digitsValue_toString]

theorem not_isBlank_of_isDigit {c : Char} (digit : c.isDigit = true) : Text.isBlank c = false := by
  obtain ⟨low, high⟩ := Char.isDigit_iff_toNat.mp digit
  change 48 ≤ c.toNat at low
  change c.toNat ≤ 57 at high
  simp only [Text.isBlank, Bool.or_eq_false_iff, Bool.and_eq_false_iff, decide_eq_false_iff_not,
    beq_eq_false_iff_ne]
  omega

/-- Neither a comma, which sets a description apart, nor a blank. -/
def IsPlainChar (c : Char) : Prop := c ≠ ',' ∧ Text.isBlank c = false

instance (c : Char) : Decidable (IsPlainChar c) := inferInstanceAs (Decidable (_ ∧ _))

theorem isPlainChar_of_isDigit {c : Char} (digit : c.isDigit = true) : IsPlainChar c := by
  refine ⟨?_, not_isBlank_of_isDigit digit⟩
  rintro rfl
  cases digit

section Plain

variable {cs : List Char}

theorem cutFirst?_of_plain (plain : ∀ c ∈ cs, IsPlainChar c) :
    Text.cutFirst? (· == ',') cs = none := by
  induction cs with
  | nil => rfl
  | cons c rest ih =>
    obtain ⟨⟨other, -⟩, plain⟩ := List.forall_mem_cons.mp plain
    rw [Text.cutFirst?, beq_eq_false_iff_ne.mpr other, if_neg Bool.false_ne_true, ih plain,
      Option.map_none]

theorem dropWhile_isBlank_of_plain (plain : ∀ c ∈ cs, IsPlainChar c) :
    cs.dropWhile Text.isBlank = cs := by
  cases cs with
  | nil => rfl
  | cons c rest =>
    rw [List.dropWhile_cons, (plain c List.mem_cons_self).2, if_neg Bool.false_ne_true]

end Plain

/-- A text without commas and blanks has no description and nothing to trim. -/
theorem name_ofSpeaker_of_plain {s : String} (plain : ∀ c ∈ s.toList, IsPlainChar c) :
    (SpeakerInfo.ofSpeaker s).name = s := by
  have backwards : ∀ c ∈ s.toList.reverse, IsPlainChar c := by
    intro c mem
    exact plain c (List.mem_reverse.mp mem)
  have trimmed : Text.trim s = s := by
    rw [Text.trim, Text.dropEndWhile, dropWhile_isBlank_of_plain plain,
      dropWhile_isBlank_of_plain backwards, List.reverse_reverse, String.ofList_toList]
  simp only [SpeakerInfo.ofSpeaker, Text.cutAt?, cutFirst?_of_plain plain, Option.map_none,
    trimmed]

theorem isPlainChar_of_isDecimalId {s : String} (decimal : isDecimalId s = true) :
    ∀ c ∈ s.toList, IsPlainChar c := by
  rw [isDecimalId, Bool.and_eq_true, List.all_eq_true] at decimal
  exact fun c mem => isPlainChar_of_isDigit (decimal.2 c mem)

theorem isDecimalId_of_hasRealName {s : String}
    (real : (SpeakerInfo.ofSpeaker s).hasRealName = true) : isDecimalId s = false := by
  cases decimal : isDecimalId s with
  | false => rfl
  | true =>
    have name := name_ofSpeaker_of_plain (isPlainChar_of_isDecimalId decimal)
    rw [SpeakerInfo.hasRealName, name, decimal] at real
    simp at real

namespace Document

variable {known : Table String SpeakerInfo}

/-! ## Moving entries -/

theorem find?_rekey (doc : Document) {entry : String × MentionId} {info : SpeakerInfo}
    (found : known.find? entry.1 = some info) (s : String) :
    (doc.rekey known entry).find? s =
      if s = toString entry.2 then some (doc.identified info entry.2)
      else if s = entry.1 then none else known.find? s := by
  rw [rekey, found]
  dsimp only
  rw [Table.find?_insert, Table.erase, Table.find?_filterKeys]
  by_cases same : s = entry.1 <;> simp [same]

/-- A row of moves: what was known under a name is found under the id it was moved to, of several
names for one id under the last, and nothing else has changed its place. -/
theorem find?_foldl_rekey (doc : Document) {conversions : List (String × MentionId)}
    (once : (conversions.map Prod.fst).Nodup)
    (names : ∀ entry ∈ conversions, isDecimalId entry.1 = false)
    (described : ∀ entry ∈ conversions, known.contains entry.1 = true) (s : String) :
    (conversions.foldl doc.rekey known).find? s =
      match conversions.reverse.find? fun entry => toString entry.2 == s with
      | some entry => (known.find? entry.1).map fun info => doc.identified info entry.2
      | none => if s ∈ conversions.map Prod.fst then none else known.find? s := by
  -- the last move decides, so the induction is from the end
  induction conversions using List.reverseRecOn generalizing s with
  | nil => rfl
  | append_singleton before entry ih =>
    rw [List.map_append, List.nodup_append] at once
    obtain ⟨onceBefore, -, apart⟩ := once
    obtain ⟨namesBefore, name⟩ := List.forall_mem_append.mp names
    obtain ⟨describedBefore, here⟩ := List.forall_mem_append.mp described
    have name : isDecimalId entry.1 = false := name entry List.mem_cons_self
    have ih := fun s => ih onceBefore namesBefore describedBefore s
    obtain ⟨info, found⟩ := Option.isSome_iff_exists.mp (here entry List.mem_cons_self)
    have fresh : entry.1 ∉ before.map Prod.fst := fun mem =>
      apart entry.1 mem entry.1 List.mem_cons_self rfl
    -- a name is no id, so no move before has put anything there
    have noId : before.reverse.find? (fun e => toString e.2 == entry.1) = none := by
      refine List.find?_eq_none.mpr fun e _ same => ?_
      rw [← beq_iff_eq.mp same, isDecimalId_toString] at name
      cases name
    have untouched : (before.foldl doc.rekey known).find? entry.1 = some info := by
      rw [ih, noId]
      exact (if_neg fresh).trans found
    rw [List.foldl_append, List.foldl_cons, List.foldl_nil, doc.find?_rekey untouched,
      List.reverse_append, List.reverse_singleton, List.singleton_append, List.find?_cons]
    by_cases moved : s = toString entry.2
    · subst moved
      simp [found]
    · have other : (toString entry.2 == s) = false := beq_eq_false_iff_ne.mpr (Ne.symm moved)
      rw [if_neg moved, other]
      dsimp only
      rw [ih]
      by_cases same : s = entry.1
      · subst same
        rw [if_pos rfl, noId]
        exact (if_pos (List.mem_map_of_mem (List.mem_append_right before List.mem_cons_self))).symm
      · simp only [same, List.map_append, List.map_singleton, List.mem_append, List.mem_singleton,
          or_false, if_false]

/-! ## The conversions -/

section Conversions

variable {doc : Document} {name : String} {id : MentionId}

theorem mem_nameConversions_iff :
    (name, id) ∈ doc.nameConversions ↔
      ∃ info, doc.speakerInfo.find? name = some info ∧ info.hasRealName = true ∧
        ∃ m, doc.mentionOfName? info = some m ∧ m.id = id := by
  rw [nameConversions, List.mem_filterMap]
  constructor
  · rintro ⟨⟨name', info⟩, entry, converted⟩
    obtain ⟨real, found⟩ := Option.ite_none_right_eq_some.mp converted
    obtain ⟨m, named, same⟩ := Option.map_eq_some_iff.mp found
    cases same
    exact ⟨info, (Table.mem_entries_iff _ _ _).mp entry, real, m, named, rfl⟩
  · rintro ⟨info, described, real, m, found, rfl⟩
    refine ⟨(name, info), (Table.mem_entries_iff _ _ _).mpr described, ?_⟩
    dsimp only
    rw [if_pos real, found]
    rfl

theorem nodup_nameConversions (doc : Document) : (doc.nameConversions.map Prod.fst).Nodup := by
  refine List.pairwise_map.mpr (List.pairwise_filterMap.mpr ?_)
  refine (List.pairwise_map.mp doc.speakerInfo.nodup_keys).imp fun {e f} differ a mem b mem' => ?_
  -- a conversion is made at its own entry
  obtain ⟨-, named⟩ := Option.ite_none_right_eq_some.mp mem
  obtain ⟨-, named'⟩ := Option.ite_none_right_eq_some.mp mem'
  obtain ⟨m, -, rfl⟩ := Option.map_eq_some_iff.mp named
  obtain ⟨m', -, rfl⟩ := Option.map_eq_some_iff.mp named'
  exact differ

theorem lookup_nameConversions_iff :
    doc.nameConversions.lookup name = some id ↔ (name, id) ∈ doc.nameConversions := by
  have once := doc.nodup_nameConversions
  constructor
  · intro found
    obtain ⟨pre, post, split, -⟩ := List.lookup_eq_some_iff.mp found
    rw [split]
    exact List.mem_append_right pre List.mem_cons_self
  · intro mem
    obtain ⟨pre, post, split⟩ := List.append_of_mem mem
    refine List.lookup_eq_some_iff.mpr ⟨pre, post, split, fun other earlier => ?_⟩
    rw [split, List.map_append, List.map_cons] at once
    have differ := (List.nodup_append.mp once).2.2 other.1 (List.mem_map_of_mem earlier) name
      List.mem_cons_self
    simpa using differ.symm

theorem lookup_nameConversions_eq_none_iff :
    doc.nameConversions.lookup name = none ↔ name ∉ doc.nameConversions.map Prod.fst := by
  rw [List.lookup_eq_none_iff, List.mem_map]
  constructor
  · rintro none ⟨entry, mem, rfl⟩
    simpa using none entry mem
  · intro none entry mem
    exact bne_iff_ne.mpr fun same => none ⟨entry, mem, same.symm⟩

end Conversions

/-- The text under which a speaker is known once speakers are reconciled with mentions. -/
def convertedText (doc : Document) (name : String) : String :=
  ((doc.nameConversions.lookup name).map toString).getD name

theorem convertedText_eq_iff {doc : Document} {name s : String} :
    doc.convertedText name = s ↔ (∃ id, (name, id) ∈ doc.nameConversions ∧ toString id = s) ∨
      name ∉ doc.nameConversions.map Prod.fst ∧ name = s := by
  rw [convertedText]
  cases converted : doc.nameConversions.lookup name with
  | some id =>
    have mem := lookup_nameConversions_iff.mp converted
    have listed : name ∈ doc.nameConversions.map Prod.fst := List.mem_map_of_mem mem
    refine ⟨fun same => .inl ⟨id, mem, same⟩, ?_⟩
    rintro (⟨id', mem', same⟩ | ⟨kept, -⟩)
    · rw [lookup_nameConversions_iff.mpr mem', Option.some.injEq] at converted
      exact converted ▸ same
    · exact absurd listed kept
  | none =>
    have kept := lookup_nameConversions_eq_none_iff.mp converted
    refine ⟨fun same => .inr ⟨kept, same⟩, ?_⟩
    rintro (⟨id, mem, -⟩ | ⟨-, same⟩)
    · exact absurd (List.mem_map_of_mem mem) kept
    · exact same

/-- Every speaker is described by what his text says. -/
def DescribedByText (doc : Document) : Prop :=
  ∀ s info, doc.speakerInfo.find? s = some info → info = .ofSpeaker s

namespace DescribedByText

variable {doc : Document}

theorem isDecimalId_of_mem (plain : doc.DescribedByText) {entry : String × MentionId}
    (mem : entry ∈ doc.nameConversions) : isDecimalId entry.1 = false := by
  obtain ⟨info, found, real, -⟩ := mem_nameConversions_iff.mp mem
  rw [plain _ _ found] at real
  exact isDecimalId_of_hasRealName real

/-- What is known of the speakers after all moves. -/
theorem find?_speakerInfo (plain : doc.DescribedByText) (s : String) :
    doc.reconcileSpeakers.speakerInfo.find? s =
      match doc.nameConversions.reverse.find? fun entry => toString entry.2 == s with
      | some entry => (doc.speakerInfo.find? entry.1).map fun info => doc.identified info entry.2
      | none => if s ∈ doc.nameConversions.map Prod.fst then none else doc.speakerInfo.find? s := by
  refine doc.find?_foldl_rekey doc.nodup_nameConversions
    (fun entry mem => plain.isDecimalId_of_mem mem) (fun entry mem => ?_) s
  obtain ⟨info, found, -⟩ := mem_nameConversions_iff.mp mem
  exact Option.isSome_of_mem found

/-- Who was described is described still, under the text that stands for him then, and nobody else
is. -/
theorem contains_speakerInfo_iff (plain : doc.DescribedByText) (s : String) :
    doc.reconcileSpeakers.speakerInfo.contains s = true ↔
      ∃ name, doc.speakerInfo.contains name = true ∧ doc.convertedText name = s := by
  simp only [convertedText_eq_iff]
  rw [Table.contains, plain.find?_speakerInfo]
  split
  next entry moved =>
    have mem := List.mem_reverse.mp (List.mem_of_find?_eq_some moved)
    obtain ⟨info, found, -⟩ := mem_nameConversions_iff.mp mem
    rw [found]
    have same := List.find?_some moved
    exact iff_of_true rfl
      ⟨entry.1, Option.isSome_of_mem found, .inl ⟨entry.2, mem, beq_iff_eq.mp same⟩⟩
  next unmoved =>
    have nothing : ∀ name id, (name, id) ∈ doc.nameConversions → toString id ≠ s := by
      intro name id mem same
      exact List.find?_eq_none.mp unmoved (name, id) (List.mem_reverse.mpr mem) (beq_iff_eq.mpr same)
    split
    next converted =>
      refine iff_of_false Bool.false_ne_true ?_
      rintro ⟨name, -, ⟨id, mem, same⟩ | ⟨kept, rfl⟩⟩
      · exact nothing name id mem same
      · exact kept converted
    next kept =>
      refine ⟨fun here => ⟨s, here, .inr ⟨kept, rfl⟩⟩, ?_⟩
      rintro ⟨name, here, ⟨id, mem, same⟩ | ⟨-, rfl⟩⟩
      · exact absurd same (nothing name id mem)
      · exact here

end DescribedByText

/-- Every speaker of an utterance is described. -/
def SpeakersKnown (doc : Document) : Prop :=
  ∀ utterance s, doc.speakers.find? utterance = some s → doc.speakerInfo.contains s = true

/-- Reconciling speakers with mentions leaves nobody undescribed who was described by what his text
says. -/
theorem SpeakersKnown.reconcileSpeakers {doc : Document} (known : doc.SpeakersKnown)
    (plain : doc.DescribedByText) : doc.reconcileSpeakers.SpeakersKnown := by
  intro utterance s found
  rw [Document.reconcileSpeakers, Table.mapValues, Table.find?_mapEntries] at found
  obtain ⟨name, given, rfl⟩ := Option.map_eq_some_iff.mp found
  exact (plain.contains_speakerInfo_iff _).mpr ⟨name, known _ _ given, rfl⟩

end Document

end Discourse
