import Discourse.Mention.Detection
import Discourse.Proofs.FirstFailure
import Mathlib.Data.List.Nodup
import Mathlib.Data.List.Perm.Basic
/-!
# Absorbed candidates

Each candidate of a sentence, in its turn, drops those that it absorbs, unless it has been dropped
before.  So what a candidate does depends on what was done by those before it, and yet nothing of
that is left in the result.  A candidate that has been dropped for being absorbed lies within a
longer one, and that one absorbs all that the shorter one would have (`Encloses.trans`); the
longest of them is never dropped.  What is kept can therefore be said of each candidate by itself
(`Stands`), and the order of the candidates is only that of the result.

What the loop does is stated for any flags to begin with (`Turns`), and only then for those of the
spurious candidates.
-/

namespace Discourse

namespace MentionSpan

/-- The tokens of a candidate, from the first one up to the one behind the last. -/
def range (span : MentionSpan) : Nat × Nat := (span.start, span.stop)

/-- Whether a candidate has all tokens of another. -/
def Encloses (outer inner : MentionSpan) : Prop :=
  outer.start ≤ inner.start ∧ inner.stop ≤ outer.stop

instance (outer inner : MentionSpan) : Decidable (outer.Encloses inner) :=
  inferInstanceAs (Decidable (_ ∧ _))

theorem Encloses.trans {a b c : MentionSpan} (ab : a.Encloses b) (bc : b.Encloses c) :
    a.Encloses c :=
  ⟨Nat.le_trans ab.1 bc.1, Nat.le_trans bc.2 ab.2⟩

theorem Encloses.range_eq_or {a b : MentionSpan} (ab : a.Encloses b) :
    a.range = b.range ∨ a.start < b.start ∨ b.stop < a.stop := by
  obtain ⟨before, behind⟩ := ab
  simp only [range, Prod.mk.injEq]
  omega

end MentionSpan

namespace Sentence

variable {s : Sentence} {span outer inner : MentionSpan}

/-- Whether the first word of a candidate denies what follows. -/
def IsDenied (s : Sentence) (span : MentionSpan) : Prop :=
  ∃ first ∈ s.tokens[span.start]?, Text.lower first.word ∈ negativeQuantifiers

/-- Whether a candidate is a percentage or an amount of money, by its head. -/
def IsAmount (s : Sentence) (span : MentionSpan) : Prop :=
  ∃ head ∈ span.head?.bind fun head => s.tokens[head]?,
    head.word = "%" ∨ head.ner = "PERCENT" ∨ head.ner = "MONEY"

/-- Whether a candidate makes no mention, whatever the other candidates are. -/
def Spurious (s : Sentence) (span : MentionSpan) : Prop := s.IsDenied span ∨ s.IsAmount span

/-- Whether a comma or a conjunction comes right after a candidate. -/
def IsSeparated (s : Sentence) (span : MentionSpan) : Prop :=
  ∃ next ∈ s.tokens[span.stop]?, next.pos = "," ∨ next.pos = "CC"

/-- Whether a candidate is kept among others. -/
def Stands (s : Sentence) (spans : List MentionSpan) (span : MentionSpan) : Prop :=
  ¬s.Spurious span ∧
    ((∀ other ∈ spans, other ≠ span → ¬s.Spurious other → other.head? = span.head? →
        ¬other.Encloses span) ∨ s.IsSeparated span)

instance : DecidablePred s.IsDenied := fun span =>
  inferInstanceAs (Decidable (∃ first ∈ s.tokens[span.start]?, _))

instance : DecidablePred s.IsAmount := fun span =>
  inferInstanceAs (Decidable (∃ head ∈ span.head?.bind fun head => s.tokens[head]?, _))

instance : DecidablePred s.Spurious := fun _ => inferInstanceAs (Decidable (_ ∨ _))

instance : DecidablePred s.IsSeparated := fun span =>
  inferInstanceAs (Decidable (∃ next ∈ s.tokens[span.stop]?, _))

instance (spans : List MentionSpan) : DecidablePred (s.Stands spans) := fun _ =>
  inferInstanceAs (Decidable (_ ∧ ((∀ other ∈ spans, _) ∨ _)))

/-! ## One candidate -/

/-- The judgement over a candidate that has a first token. -/
theorem isSpurious_eq (inside : span.start < s.length) :
    s.isSpurious span = .ok (decide (s.Spurious span)) := by
  have first : s.tokens[span.start]? = some s.tokens[span.start] := List.getElem?_eq_getElem inside
  have denied : s.IsDenied span ↔
      Text.lower s.tokens[span.start].word ∈ negativeQuantifiers := by
    simp [IsDenied, first]
  rw [isSpurious, first]
  dsimp only
  split
  next listed =>
    have spurious : s.Spurious span := .inl (denied.mpr (List.contains_iff_mem.mp listed))
    rw [decide_eq_true spurious]
  next unlisted =>
    have affirmed : ¬s.IsDenied span := fun is =>
      unlisted (List.contains_iff_mem.mpr (denied.mp is))
    have only : s.Spurious span ↔ s.IsAmount span := or_iff_right affirmed
    have amount : decide (s.Spurious span) = decide (s.IsAmount span) := decide_eq_decide.mpr only
    rw [amount]
    split
    next headless => simp [IsAmount, headless]
    next head found => simp [IsAmount, found, Bool.beq_eq_decide_eq, Bool.or_assoc]

theorem isSeparatedAfter_iff : s.isSeparatedAfter span = true ↔ s.IsSeparated span := by
  rw [isSeparatedAfter]
  split
  next next found => simp [IsSeparated, found]
  next none => simp [IsSeparated, none]

theorem absorbs_iff : s.absorbs outer inner = true ↔
    outer.head? = inner.head? ∧ outer.Encloses inner ∧ ¬s.IsSeparated inner := by
  rw [← isSeparatedAfter_iff]
  simp [absorbs, isInside, MentionSpan.Encloses, and_assoc]

/-- Whatever absorbs a candidate absorbs all that the candidate has within it. -/
theorem absorbs_trans {span : MentionSpan} (first : s.absorbs span outer = true)
    (second : s.absorbs outer inner = true) : s.absorbs span inner = true := by
  rw [absorbs_iff] at first second ⊢
  exact ⟨first.1.trans second.1, first.2.1.trans second.2.1, second.2.2⟩

/-! ## The turns of the candidates -/

section Turns

/-- A numbered candidate. -/
abbrev Numbered := Nat × MentionSpan

/-- Numbered candidates with a flag for each. -/
def flagged (row : List Numbered) (dropped : Numbered → Bool) : Candidates :=
  row.map fun c => (c.1, c.2, dropped c)

/-- The flags after the turn of a candidate. -/
def flagsAfter (s : Sentence) (dropped : Numbered → Bool) (turn c : Numbered) : Bool :=
  dropped c || (!dropped turn && (c.1 != turn.1 && s.absorbs turn.2 c.2))

variable {row turns : List Numbered} {dropped : Numbered → Bool} {turn c : Numbered}

theorem isDropped_flagged (once : (row.map Prod.fst).Nodup) (listed : c ∈ row) :
    isDropped (flagged row dropped) c.1 = dropped c := by
  rw [Bool.eq_iff_iff, isDropped, List.any_eq_true]
  constructor
  · rintro ⟨c', mem, both⟩
    obtain ⟨c'', listed', rfl⟩ := List.mem_map.mp mem
    rw [Bool.and_eq_true, beq_iff_eq] at both
    obtain rfl := List.inj_on_of_nodup_map once listed' listed both.1
    exact both.2
  · intro drops
    refine ⟨(c.1, c.2, dropped c), List.mem_map_of_mem listed, ?_⟩
    rw [Bool.and_eq_true, beq_iff_eq]
    exact ⟨rfl, drops⟩

theorem absorbWith_flagged (once : (row.map Prod.fst).Nodup) (listed : turn ∈ row) :
    s.absorbWith (flagged row dropped) turn = flagged row (s.flagsAfter dropped turn) := by
  rw [absorbWith, isDropped_flagged once listed]
  split
  next passive => simp [flagged, flagsAfter, passive]
  next active => simp [flagged, flagsAfter, active, List.map_map, Function.comp_def]

/-- The loop changes nothing but the flags. -/
theorem foldl_absorbWith_flagged (once : (row.map Prod.fst).Nodup) (listed : turns ⊆ row) :
    turns.foldl s.absorbWith (flagged row dropped) =
      flagged row (turns.foldl s.flagsAfter dropped) := by
  induction turns generalizing dropped with
  | nil => rfl
  | cons turn rest ih =>
    obtain ⟨here, later⟩ := List.cons_subset.mp listed
    rw [List.foldl_cons, List.foldl_cons, absorbWith_flagged once here, ih later]

theorem flagsAfter_eq_true_iff : s.flagsAfter dropped turn c = true ↔
    dropped c = true ∨ dropped turn = false ∧ c.1 ≠ turn.1 ∧ s.absorbs turn.2 c.2 = true := by
  simp [flagsAfter]

theorem dropped_foldl_of_dropped (drops : dropped c = true) :
    turns.foldl s.flagsAfter dropped c = true := by
  induction turns generalizing dropped with
  | nil => exact drops
  | cons turn rest ih => exact ih (flagsAfter_eq_true_iff.mpr (.inl drops))

/-- What a turn drops is absorbed by a candidate that was not dropped to begin with. -/
theorem absorbed_of_dropped (drops : turns.foldl s.flagsAfter dropped c = true) :
    dropped c = true ∨ ∃ turn ∈ turns, dropped turn = false ∧ c.1 ≠ turn.1 ∧
      s.absorbs turn.2 c.2 = true := by
  induction turns generalizing dropped with
  | nil => exact .inl drops
  | cons turn rest ih =>
    rcases ih drops with now | ⟨later, listed, active, other, absorbs⟩
    · rcases flagsAfter_eq_true_iff.mp now with before | here
      · exact .inl before
      · exact .inr ⟨turn, List.mem_cons_self, here⟩
    · refine .inr ⟨later, List.mem_cons_of_mem _ listed, ?_, other, absorbs⟩
      exact (Bool.or_eq_false_iff.mp active).1

/-- What is not dropped in the end was not dropped in its turn, and has dropped all that it
absorbs. -/
theorem dropped_of_absorbed (listed : turn ∈ turns)
    (lasts : turns.foldl s.flagsAfter dropped turn = false) (other : c.1 ≠ turn.1)
    (absorbs : s.absorbs turn.2 c.2 = true) : turns.foldl s.flagsAfter dropped c = true := by
  induction turns generalizing dropped with
  | nil => cases listed
  | cons first rest ih =>
    rcases List.mem_cons.mp listed with rfl | later
    · have active : dropped turn = false := by
        by_contra drops
        rw [dropped_foldl_of_dropped (Bool.not_eq_false _ ▸ drops)] at lasts
        cases lasts
      have now := flagsAfter_eq_true_iff.mpr (.inr ⟨active, other, absorbs⟩)
      rw [List.foldl_cons]
      exact dropped_foldl_of_dropped now
    · exact ih later lasts

end Turns

/-! ## The candidates that are kept -/

section Kept

variable {spans : List MentionSpan}

/-- Candidates with their places. -/
def numbered (spans : List MentionSpan) : List Numbered :=
  spans.zipIdx.map fun (span, i) => (i, span)

theorem mem_numbered_iff {c : Numbered} : c ∈ numbered spans ↔ spans[c.1]? = some c.2 := by
  rw [numbered, List.mem_map]
  constructor
  · rintro ⟨c', listed, rfl⟩
    exact List.mem_zipIdx_iff_getElem?.mp listed
  · intro here
    exact ⟨(c.2, c.1), List.mem_zipIdx_iff_getElem?.mpr here, rfl⟩

theorem map_snd_numbered : (numbered spans).map Prod.snd = spans := by
  rw [numbered, List.map_map]
  exact List.zipIdx_map_fst 0 spans

theorem nodup_map_fst_numbered : ((numbered spans).map Prod.fst).Nodup := by
  rw [numbered, List.map_map]
  show (spans.zipIdx.map Prod.snd).Nodup
  rw [List.zipIdx_map_snd]
  exact List.nodup_range'

/-- The flags of the candidates after the turn of each. -/
def finalFlags (s : Sentence) (spans : List MentionSpan) : Numbered → Bool :=
  (numbered spans).foldl s.flagsAfter fun c => decide (s.Spurious c.2)

theorem removeSpurious_eq_filter (inside : ∀ span ∈ spans, span.start < s.length) :
    s.removeSpurious spans =
      .ok (((numbered spans).filter fun c => !s.finalFlags spans c).map Prod.snd) := by
  have judged : spans.mapM s.isSpurious = .ok (spans.map fun span => decide (s.Spurious span)) := by
    rw [mapM_eq_ok_iff, List.map_map]
    exact List.map_congr_left fun span listed => isSpurious_eq (inside span listed)
  have start : (spans.zip (spans.map fun span => decide (s.Spurious span))).zipIdx.map
      (fun e => (e.2, e.1.1, e.1.2)) =
        flagged (numbered spans) fun c => decide (s.Spurious c.2) := by
    rw [← List.map_prod_left_eq_zip, List.zipIdx_map, List.map_map, flagged, numbered, List.map_map]
    rfl
  rw [removeSpurious, judged]
  show Except.ok ((((numbered spans).foldl s.absorbWith
    (List.map (fun e : (MentionSpan × Bool) × Nat => (e.2, e.1.1, e.1.2)) _)).filter _).map _) = _
  rw [start, foldl_absorbWith_flagged nodup_map_fst_numbered (List.Subset.refl _), flagged,
    List.filter_map, List.map_map]
  rfl

theorem eq_of_range_eq (distinct : (spans.map MentionSpan.range).Nodup) {a b : Numbered}
    (listed : a ∈ numbered spans) (listed' : b ∈ numbered spans) (same : a.2.range = b.2.range) :
    a.1 = b.1 := by
  rw [mem_numbered_iff] at listed listed'
  have here : (spans.map MentionSpan.range)[a.1]? = some a.2.range := by
    rw [List.getElem?_map, listed, Option.map_some]
  have there : (spans.map MentionSpan.range)[b.1]? = some b.2.range := by
    rw [List.getElem?_map, listed', Option.map_some]
  exact (List.getElem?_inj (List.getElem?_eq_some_iff.mp here).1 distinct).mp
    (here.trans (same ▸ there.symm))

/-- A candidate that is absorbed is absorbed by one that is never dropped. -/
theorem exists_lasting (within : ∀ span ∈ spans, span.stop ≤ s.length)
    (distinct : (spans.map MentionSpan.range).Nodup) {span outer : MentionSpan}
    (listed : outer ∈ spans) (sound : ¬s.Spurious outer) (other : outer.range ≠ span.range)
    (absorbs : s.absorbs outer span = true) :
    ∃ c ∈ numbered spans, s.finalFlags spans c = false ∧ c.2.range ≠ span.range ∧
      s.absorbs c.2 span = true := by
  -- What absorbs the absorbing candidate reaches farther, and no candidate leaves the sentence.
  induction reach : outer.start + (s.length - outer.stop) using Nat.strongRecOn
    generalizing outer with
  | ind reach ih =>
    obtain ⟨i, here⟩ := List.getElem?_of_mem listed
    have place : (i, outer) ∈ numbered spans := mem_numbered_iff.mpr here
    cases outcome : s.finalFlags spans (i, outer) with
    | false => exact ⟨(i, outer), place, outcome, other, absorbs⟩
    | true =>
      rcases absorbed_of_dropped outcome with spurious | ⟨turn, place', active, apart, wider⟩
      · exact absurd (of_decide_eq_true spurious) sound
      · have listed' : turn.2 ∈ spans := List.mem_of_getElem? (mem_numbered_iff.mp place')
        have differs : turn.2.range ≠ outer.range := fun same =>
          apart (eq_of_range_eq distinct place place' same.symm)
        have stop := within _ listed'
        have encloses : turn.2.Encloses outer := (absorbs_iff.mp wider).2.1
        have encloses' : outer.Encloses span := (absorbs_iff.mp absorbs).2.1
        have farther := encloses.range_eq_or.resolve_left differs
        refine ih _ ?_ listed' (of_decide_eq_false active) ?_ (absorbs_trans wider absorbs) rfl
        · have := encloses.1
          have := encloses.2
          omega
        · intro same
          have := encloses'.1
          have := encloses'.2
          obtain ⟨start, stop⟩ := Prod.mk.inj same
          omega

/-- What the turns leave is what stands by itself. -/
theorem finalFlags_eq_false_iff (within : ∀ span ∈ spans, span.stop ≤ s.length)
    (distinct : (spans.map MentionSpan.range).Nodup) {c : Numbered} (place : c ∈ numbered spans) :
    s.finalFlags spans c = false ↔ s.Stands spans c.2 := by
  constructor
  · intro lasts
    refine ⟨fun spurious => ?_, ?_⟩
    · rw [finalFlags, dropped_foldl_of_dropped (decide_eq_true spurious)] at lasts
      cases lasts
    · refine or_iff_not_imp_right.mpr fun joined other listed differs sound head encloses => ?_
      have apart : other.range ≠ c.2.range := fun same =>
        differs (List.inj_on_of_nodup_map distinct listed
          (List.mem_of_getElem? (mem_numbered_iff.mp place)) same)
      obtain ⟨turn, place', stays, apart, absorbs⟩ := exists_lasting within distinct listed sound
        apart (absorbs_iff.mpr ⟨head, encloses, joined⟩)
      have numbers : c.1 ≠ turn.1 := fun same => by
        rw [mem_numbered_iff] at place place'
        rw [same, place'] at place
        exact apart (congrArg MentionSpan.range (Option.some.inj place))
      rw [finalFlags, dropped_of_absorbed place' stays numbers absorbs] at lasts
      cases lasts
  · rintro ⟨sound, free⟩
    by_contra drops
    rcases absorbed_of_dropped (Bool.not_eq_false _ ▸ drops) with
      spurious | ⟨turn, place', active, numbers, absorbs⟩
    · exact sound (of_decide_eq_true spurious)
    · obtain ⟨head, encloses, joined⟩ := absorbs_iff.mp absorbs
      rcases free with alone | separated
      · refine alone turn.2 (List.mem_of_getElem? (mem_numbered_iff.mp place')) ?_
          (of_decide_eq_false active) head encloses
        intro same
        exact numbers (eq_of_range_eq distinct place place' (congrArg MentionSpan.range same.symm))
      · exact joined separated

/-- What is kept, without the loop. -/
theorem removeSpurious_eq (within : ∀ span ∈ spans, span.start < s.length ∧ span.stop ≤ s.length)
    (distinct : (spans.map MentionSpan.range).Nodup) :
    s.removeSpurious spans = .ok (spans.filter fun span => s.Stands spans span) := by
  have flags : ∀ c ∈ numbered spans,
      (!s.finalFlags spans c) = ((fun span => decide (s.Stands spans span)) ∘ Prod.snd) c := by
    intro c place
    rw [Bool.eq_iff_iff, Bool.not_eq_true', Function.comp_apply, decide_eq_true_iff]
    exact finalFlags_eq_false_iff (fun span listed => (within span listed).2) distinct place
  rw [removeSpurious_eq_filter fun span listed => (within span listed).1,
    List.filter_congr flags, ← List.filter_map, map_snd_numbered]

theorem stands_congr {other : List MentionSpan} (same : ∀ span, span ∈ other ↔ span ∈ spans)
    (span : MentionSpan) : s.Stands other span ↔ s.Stands spans span := by
  simp only [Stands, same]

end Kept

/-- Of different candidates within a sentence those are kept, in their order, that are not spurious
and have no other sound candidate with the same head around them, unless a comma or a conjunction
follows; so candidates in another order give the same ones in another order. -/
theorem removeSpurious_stands (s : Sentence) (spans : List MentionSpan)
    (within : ∀ span ∈ spans, span.isWithin s = true)
    (distinct : (spans.map MentionSpan.range).Nodup) :
    s.removeSpurious spans = .ok (spans.filter fun span => s.Stands spans span) ∧
      ∀ shuffled, shuffled.Perm spans → ∃ kept, s.removeSpurious shuffled = .ok kept ∧
        kept.Perm (spans.filter fun span => s.Stands spans span) := by
  have bounds : ∀ span ∈ spans, span.start < s.length ∧ span.stop ≤ s.length := by
    intro span listed
    have inside := within span listed
    rw [MentionSpan.isWithin, Bool.and_eq_true, decide_eq_true_iff, decide_eq_true_iff] at inside
    exact ⟨Nat.lt_of_lt_of_le inside.1 inside.2, inside.2⟩
  refine ⟨removeSpurious_eq bounds distinct, fun shuffled perm => ?_⟩
  refine ⟨_, removeSpurious_eq (fun span listed => bounds span (perm.mem_iff.mp listed))
    ((perm.map _).nodup_iff.mpr distinct), ?_⟩
  rw [List.filter_congr fun span _ =>
    decide_eq_decide.mpr (stands_congr (fun _ => perm.mem_iff) span)]
  exact perm.filter _

/-- In the phrase "dogs and the old cats" the longest of three mentions of the cats is kept, and the
dogs are kept beside the whole phrase. -/
theorem removeSpurious_stands_nested :
    let s : Sentence :=
      { tokens := [.ofWord "dogs" "NNS", .ofWord "and" "CC", .ofWord "the" "DT",
          .ofWord "old" "JJ", .ofWord "cats" "NNS"] }
    let cats : MentionSpan := { start := 2, stop := 5, head? := some 4 }
    let dogs : MentionSpan := { start := 0, stop := 1, head? := some 0 }
    let both : MentionSpan := { start := 0, stop := 5, head? := some 0 }
    let spans := [{ cats with start := 4 }, { cats with start := 3 }, cats, dogs, both]
    (∀ span ∈ spans, span.isWithin s = true) ∧ (spans.map MentionSpan.range).Nodup ∧
      (spans.filter fun span => s.Stands spans span) = [cats, dogs, both] ∧
      s.removeSpurious spans = .ok [cats, dogs, both] ∧
      ∃ kept, s.removeSpurious spans.reverse = .ok kept ∧ kept.Perm [cats, dogs, both] := by
  intro s cats dogs both spans
  have within : ∀ span ∈ spans, span.isWithin s = true := by decide
  have distinct : (spans.map MentionSpan.range).Nodup := by decide
  have stand : (spans.filter fun span => s.Stands spans span) = [cats, dogs, both] := by
    decide +kernel
  obtain ⟨kept, shuffled⟩ := removeSpurious_stands s spans within distinct
  rw [stand] at kept shuffled
  exact ⟨within, distinct, stand, kept, shuffled _ (List.reverse_perm spans)⟩

end Sentence

end Discourse
