import Discourse.Proofs.Cluster.Pair
/-!
# Remembered acronyms

Whether one cluster abbreviates another is computed once for each pair and remembered.  Members come
and go with merges, so an answer can grow old.  A remembered yes does not: the members it was found
among are still together under the winner's id, where a merge puts the answer (`Remembered`).  A
remembered no does.  A merge drops it if one of the two clusters is the loser, and replaces it if
the loser is known to abbreviate the other one; but if new members come to one of the two as the
winner it stands as it is.

`clusterAcronym_clusterRun_iff` draws the line: after any run the answer is yes exactly if some
member abbreviates some member and no refusal stands.
-/

namespace Discourse

theorem isAcronym_comm (u v : List String) : isAcronym u v = isAcronym v u :=
  Bool.or_comm ..

namespace Document

/-! ## What is to be known -/

/-- The words of a predicted mention. -/
def wordsOf? (d : Document) (id : MentionId) : Option (List String) :=
  (d.mention? id).map fun m => Text.words m.text

/-- Some member of one cluster abbreviates some member of the other. -/
def SomeAbbreviates (d : Document) (a b : ClusterId) : Prop :=
  ∃ x ∈ d.membersOf a, ∃ y ∈ d.membersOf b, ∃ u v,
    d.wordsOf? x = some u ∧ d.wordsOf? y = some v ∧ isAcronym u v = true

theorem mem_memberWords_iff (d : Document) (c : ClusterId) (u : List String) :
    u ∈ d.memberWords c ↔ ∃ x ∈ d.membersOf c, d.wordsOf? x = some u := by
  simp only [memberWords, wordsOf?, List.mem_map, List.mem_filterMap, Option.map_eq_some_iff]
  constructor
  · rintro ⟨m, ⟨x, mem, found⟩, rfl⟩
    exact ⟨x, mem, m, found, rfl⟩
  · rintro ⟨x, mem, m, found, rfl⟩
    exact ⟨m, ⟨x, mem, found⟩, rfl⟩

theorem abbreviate_iff (d : Document) (a b : ClusterId) :
    d.abbreviate a b = true ↔ d.SomeAbbreviates a b := by
  simp only [abbreviate, List.any_eq_true, mem_memberWords_iff]
  constructor
  · rintro ⟨u, ⟨x, hx, hu⟩, v, ⟨y, hy, hv⟩, h⟩
    exact ⟨x, hx, y, hy, u, v, hu, hv, h⟩
  · rintro ⟨x, hx, y, hy, u, v, hu, hv, h⟩
    exact ⟨u, ⟨x, hx, hu⟩, v, ⟨y, hy, hv⟩, h⟩

theorem SomeAbbreviates.symm {d : Document} {a b : ClusterId} (h : d.SomeAbbreviates a b) :
    d.SomeAbbreviates b a := by
  obtain ⟨x, hx, y, hy, u, v, hu, hv, acronym⟩ := h
  exact ⟨y, hy, x, hx, v, u, hv, hu, isAcronym_comm u v ▸ acronym⟩

theorem SomeAbbreviates.of_unorderedPair_eq {d : Document} {a b c e : ClusterId}
    (h : d.SomeAbbreviates a b) (same : unorderedPair c e = unorderedPair a b) :
    d.SomeAbbreviates c e := by
  rcases unorderedPair_eq_iff.mp same with ⟨rfl, rfl⟩ | ⟨rfl, rfl⟩
  · exact h
  · exact h.symm

theorem wordsOf?_mergeClusters (d : Document) (winner loser : ClusterId) (x : MentionId) :
    (d.mergeClusters winner loser).wordsOf? x = d.wordsOf? x := by
  simp only [wordsOf?, mention?_mergeClusters]
  split
  · rw [Option.map_map]
    rfl
  · rfl

/-- Members that abbreviate each other go on doing so where a merge leads them. -/
theorem SomeAbbreviates.merge {d : Document} {a b : ClusterId} (h : d.SomeAbbreviates a b)
    (winner loser : ClusterId) :
    (d.mergeClusters winner loser).SomeAbbreviates
      ((ClusterStep.merge winner loser).rename a) ((ClusterStep.merge winner loser).rename b) := by
  obtain ⟨x, hx, y, hy, u, v, hu, hv, acronym⟩ := h
  exact ⟨x, (mem_membersOf_mergeClusters ..).mpr ⟨a, hx, rfl⟩, y,
    (mem_membersOf_mergeClusters ..).mpr ⟨b, hy, rfl⟩, u, v,
    (wordsOf?_mergeClusters ..).trans hu, (wordsOf?_mergeClusters ..).trans hv, acronym⟩

theorem someAbbreviates_clusterAcronym (d : Document) (c e a b : ClusterId) :
    (d.clusterAcronym c e).2.SomeAbbreviates a b ↔ d.SomeAbbreviates a b := by
  obtain ⟨acronyms, eq⟩ := d.clusterAcronym_eq c e
  rw [eq]
  exact Iff.rfl

/-! ## What is remembered -/

/-- Merging hands the pair an answer: `loser` is known to abbreviate `other`, and the pair is
`winner` with `other`. -/
def HandsOn (d : Document) (winner loser a b : ClusterId) : Prop :=
  ∃ other, other ≠ winner ∧ other ≠ loser ∧ d.knownAcronym? loser other = some true ∧
    unorderedPair a b = unorderedPair winner other

theorem mem_held_iff (known : Table (Nat × Nat) Bool) (pair : Nat × Nat) :
    pair ∈ (known.entries.filter Prod.snd).map Prod.fst ↔ known.find? pair = some true := by
  simp [Table.mem_entries_iff]

theorem held_ordered {known : Table (Nat × Nat) Bool} (ordered : PairsOrdered known.keys) :
    PairsOrdered ((known.entries.filter Prod.snd).map Prod.fst) := by
  intro pair mem
  have found := (mem_held_iff known pair).mp mem
  exact ordered pair ((Table.mem_keys_iff _ _).mpr (Option.isSome_iff_exists.mpr ⟨_, found⟩))

theorem find?_mergeAnswers (known : Table (Nat × Nat) Bool) (winner loser : Nat)
    (pair : Nat × Nat) :
    (mergeAnswers winner loser known).find? pair =
      if pair ∈ handOver winner loser ((known.entries.filter Prod.snd).map Prod.fst) then some true
      else if touches loser pair then none
      else known.find? pair := by
  rw [mergeAnswers, Table.find?_foldl_insert (fun _ => true), Table.find?_filterKeys]
  cases touches loser pair <;> simp

theorem knownAcronym?_mergeClusters {d : Document} (ordered : PairsOrdered d.acronyms.keys)
    {winner loser : ClusterId} (ne : winner ≠ loser) (a b : ClusterId) (v : Bool) :
    (d.mergeClusters winner loser).knownAcronym? a b = some v ↔
      d.HandsOn winner loser a b ∧ v = true ∨
        ¬ d.HandsOn winner loser a b ∧ a ≠ loser ∧ b ≠ loser ∧ d.knownAcronym? a b = some v := by
  have handed : unorderedPair a b ∈ handOver winner loser
      ((d.acronyms.entries.filter Prod.snd).map Prod.fst) ↔ d.HandsOn winner loser a b := by
    simp only [mem_handOver_iff (held_ordered ordered), mem_held_iff]
    exact Iff.rfl
  have memo : (d.mergeClusters winner loser).acronyms = mergeAnswers winner loser d.acronyms := by
    rw [mergeClusters_of_ne d ne]
    rfl
  rw [knownAcronym?, memo, find?_mergeAnswers]
  by_cases h : d.HandsOn winner loser a b
  · rw [if_pos (handed.mpr h)]
    simp [h, eq_comm]
  · rw [if_neg fun mem => h (handed.mp mem)]
    by_cases touch : touches loser (unorderedPair a b) = true
    · rw [if_pos touch]
      rcases (touches_unorderedPair loser a b).mp touch with rfl | rfl <;> simp [h]
    · rw [if_neg touch]
      obtain ⟨ha, hb⟩ := not_or.mp (mt (touches_unorderedPair loser a b).mpr touch)
      exact ⟨fun found => .inr ⟨h, ha, hb, found⟩,
        fun o => (o.resolve_left fun handed => h handed.1).2.2.2⟩

theorem knownAcronym?_clusterAcronym (d : Document) (c e a b : ClusterId) (v : Bool) :
    (d.clusterAcronym c e).2.knownAcronym? a b = some v ↔
      d.knownAcronym? a b = some v ∨
        d.knownAcronym? a b = none ∧ unorderedPair c e = unorderedPair a b ∧
          d.abbreviate c e = v := by
  by_cases same : unorderedPair c e = unorderedPair a b
  · have known : d.knownAcronym? c e = d.knownAcronym? a b := by
      simp only [knownAcronym?, same]
    cases h : d.knownAcronym? a b with
    | some old => simp [clusterAcronym_of_known (known.trans h), h]
    | none =>
      rw [clusterAcronym_of_unknown (known.trans h)]
      simp [knownAcronym?, same]
  · have kept : (d.clusterAcronym c e).2.knownAcronym? a b = d.knownAcronym? a b := by
      cases h : d.knownAcronym? c e with
      | some old => rw [clusterAcronym_of_known h]
      | none =>
        rw [clusterAcronym_of_unknown h]
        exact Table.find?_insert_of_ne _ _ (Ne.symm same)
    simp [kept, same]

/-- The memo keeps its pairs in order, and every yes in it is true. -/
structure Remembered (d : Document) : Prop where
  ordered : PairsOrdered d.acronyms.keys
  affirmed : ∀ a b, d.knownAcronym? a b = some true → d.SomeAbbreviates a b

theorem Unjudged.knownAcronym?_eq {d : Document} (unjudged : d.Unjudged) (a b : ClusterId) :
    d.knownAcronym? a b = none := by
  rw [knownAcronym?, unjudged.acronyms]
  rfl

theorem Unjudged.remembered {d : Document} (unjudged : d.Unjudged) : d.Remembered := by
  refine ⟨fun pair mem => ?_, fun a b known => ?_⟩
  · rw [unjudged.acronyms] at mem
    exact absurd mem List.not_mem_nil
  · rw [unjudged.knownAcronym?_eq] at known
    exact nomatch known

namespace Remembered

variable {d : Document}

theorem merge (h : d.Remembered) (winner loser : ClusterId) :
    (d.mergeClusters winner loser).Remembered := by
  by_cases ne : winner = loser
  · subst ne
    simpa only [mergeClusters_self] using h
  · refine ⟨fun pair mem => ?_, fun a b known => ?_⟩
    · rw [mergeClusters_of_ne d ne] at mem
      obtain ⟨v, found⟩ := Option.isSome_iff_exists.mp ((Table.mem_keys_iff _ _).mp mem)
      simp only [moveMembers, find?_mergeAnswers] at found
      split at found
      next handed =>
        obtain ⟨_, _, _, _, rfl⟩ := (mem_handOver_iff (held_ordered h.ordered) ..).mp handed
        exact unorderedPair_le ..
      next =>
        split at found
        · cases found
        · exact h.ordered pair ((Table.mem_keys_iff _ _).mpr
            (Option.isSome_iff_exists.mpr ⟨v, found⟩))
    · rcases (knownAcronym?_mergeClusters h.ordered ne a b true).mp known with
        ⟨⟨other, neW, neL, yes, same⟩, -⟩ | ⟨-, ha, hb, yes⟩
      · refine SomeAbbreviates.of_unorderedPair_eq ?_ same
        have merged := (h.affirmed loser other yes).merge winner loser
        simpa only [ClusterStep.rename, if_true, if_neg neL] using merged
      · have merged := (h.affirmed a b yes).merge winner loser
        simpa only [ClusterStep.rename, if_neg ha, if_neg hb] using merged

theorem ask (h : d.Remembered) (a b : ClusterId) : (d.clusterAcronym a b).2.Remembered := by
  refine ⟨fun pair mem => ?_, fun x y known => ?_⟩
  · cases old : d.knownAcronym? a b with
    | some known =>
      rw [clusterAcronym_of_known old] at mem
      exact h.ordered pair mem
    | none =>
      rw [clusterAcronym_of_unknown old, Table.mem_keys_iff, Table.find?_insert] at mem
      split at mem
      next e => exact e ▸ unorderedPair_le ..
      next => exact h.ordered pair ((Table.mem_keys_iff _ _).mpr mem)
  · rw [someAbbreviates_clusterAcronym]
    rcases (d.knownAcronym?_clusterAcronym a b x y true).mp known with yes | ⟨-, same, yes⟩
    · exact h.affirmed x y yes
    · exact ((d.abbreviate_iff a b).mp yes).of_unorderedPair_eq same.symm

theorem step (h : d.Remembered) (s : ClusterStep) : (d.clusterStep s).Remembered := by
  cases s with
  | merge winner loser => exact h.merge winner loser
  | mark a b => exact ⟨h.ordered, h.affirmed⟩
  | ask a b => exact h.ask a b

end Remembered

/-! ## Refusals that stand -/

/-- The step leaves a remembered no for the two clusters as it is. -/
def KeepsRefusal (d : Document) (a b : ClusterId) : ClusterStep → Prop
  | .merge winner loser =>
    winner ≠ loser → a ≠ loser ∧ b ≠ loser ∧ ¬ d.HandsOn winner loser a b
  | .mark _ _ => True
  | .ask _ _ => True

/-- So does every step of a run. -/
def KeepsRefusalThrough (a b : ClusterId) : Document → List ClusterStep → Prop
  | _, [] => True
  | d, s :: rest => d.KeepsRefusal a b s ∧ KeepsRefusalThrough a b (d.clusterStep s) rest

/-- The two clusters were asked about when no member abbreviated a member, and that answer has been
kept since. -/
def RefusalStands (d : Document) (steps : List ClusterStep) (a b : ClusterId) : Prop :=
  ∃ before c e after, steps = before ++ .ask c e :: after ∧
    unorderedPair c e = unorderedPair a b ∧
    ¬ (d.clusterRun before).SomeAbbreviates a b ∧
    KeepsRefusalThrough a b (d.clusterRun (before ++ [.ask c e])) after

theorem not_refusalStands_nil (d : Document) (a b : ClusterId) : ¬ d.RefusalStands [] a b := by
  rintro ⟨before, c, e, after, eq, -⟩
  exact absurd eq.symm (by simp)

theorem refusalStands_cons_iff (d : Document) (s : ClusterStep) (rest : List ClusterStep)
    (a b : ClusterId) :
    d.RefusalStands (s :: rest) a b ↔
      (∃ c e, s = .ask c e ∧ unorderedPair c e = unorderedPair a b ∧
          ¬ d.SomeAbbreviates a b ∧ KeepsRefusalThrough a b (d.clusterStep s) rest) ∨
        (d.clusterStep s).RefusalStands rest a b := by
  constructor
  · rintro ⟨before, c, e, after, eq, same, no, kept⟩
    -- the refusal was found by the first step, or it stands in the rest of the run
    cases before with
    | nil =>
      obtain ⟨rfl, rfl⟩ := List.cons.inj eq
      exact .inl ⟨c, e, rfl, same, no, kept⟩
    | cons t before =>
      obtain ⟨rfl, rfl⟩ := List.cons.inj eq
      exact .inr ⟨before, c, e, after, rfl, same, no, kept⟩
  · rintro (⟨c, e, rfl, same, no, kept⟩ | ⟨before, c, e, after, rfl, same, no, kept⟩)
    · exact ⟨[], c, e, rest, rfl, same, no, kept⟩
    · exact ⟨s :: before, c, e, after, rfl, same, no, kept⟩

/-- A no is remembered after a step if the step kept it or just found it. -/
theorem Remembered.refused_step_iff {d : Document} (h : d.Remembered) (s : ClusterStep)
    (a b : ClusterId) :
    (d.clusterStep s).knownAcronym? a b = some false ↔
      d.knownAcronym? a b = some false ∧ d.KeepsRefusal a b s ∨
        ∃ c e, s = .ask c e ∧ unorderedPair c e = unorderedPair a b ∧
          ¬ d.SomeAbbreviates a b := by
  cases s with
  | merge winner loser =>
    by_cases ne : winner = loser
    · subst ne
      simp [clusterStep, KeepsRefusal]
    · simp only [clusterStep, KeepsRefusal, knownAcronym?_mergeClusters h.ordered ne]
      simp [ne, and_assoc, and_comm, and_left_comm]
  | mark x y => simp [clusterStep, KeepsRefusal, knownAcronym?, addIncompatible]
  | ask c e =>
    simp only [clusterStep, knownAcronym?_clusterAcronym, KeepsRefusal, and_true,
      ClusterStep.ask.injEq]
    constructor
    · rintro (no | ⟨-, same, no⟩)
      · exact .inl no
      · refine .inr ⟨c, e, ⟨rfl, rfl⟩, same, fun yes => ?_⟩
        rw [(d.abbreviate_iff c e).mpr (yes.of_unorderedPair_eq same)] at no
        cases no
    · rintro (no | ⟨_, _, ⟨rfl, rfl⟩, same, no⟩)
      · exact .inl no
      · -- a pair that is known already gets no new answer, but a yes would be true
        cases old : d.knownAcronym? a b with
        | none =>
          refine .inr ⟨rfl, same, Bool.eq_false_iff.mpr fun yes => no ?_⟩
          exact ((d.abbreviate_iff c e).mp yes).of_unorderedPair_eq same.symm
        | some v =>
          cases v with
          | true => exact absurd (h.affirmed a b old) no
          | false => exact .inl rfl

/-- A no is remembered after a run if the run kept it or a refusal stands. -/
theorem Remembered.refused_run_iff {d : Document} (h : d.Remembered) (steps : List ClusterStep)
    (a b : ClusterId) :
    (d.clusterRun steps).knownAcronym? a b = some false ↔
      d.knownAcronym? a b = some false ∧ KeepsRefusalThrough a b d steps ∨
        d.RefusalStands steps a b := by
  induction steps generalizing d with
  | nil => simp [KeepsRefusalThrough, not_refusalStands_nil]
  | cons s rest ih =>
    show ((d.clusterStep s).clusterRun rest).knownAcronym? a b = some false ↔ _
    rw [ih (h.step s), h.refused_step_iff, refusalStands_cons_iff]
    simp only [KeepsRefusalThrough]
    constructor
    · rintro (⟨⟨no, keeps⟩ | ⟨c, e, asked, same, no⟩, through⟩ | later)
      · exact .inl ⟨no, keeps, through⟩
      · exact .inr (.inl ⟨c, e, asked, same, no, through⟩)
      · exact .inr (.inr later)
    · rintro (⟨no, keeps, through⟩ | ⟨c, e, asked, same, no, through⟩ | later)
      · exact .inl ⟨.inl ⟨no, keeps⟩, through⟩
      · exact .inl ⟨.inr ⟨c, e, asked, same, no⟩, through⟩
      · exact .inr later

theorem Remembered.run {d : Document} (h : d.Remembered) (steps : List ClusterStep) :
    (d.clusterRun steps).Remembered := by
  induction steps generalizing d with
  | nil => exact h
  | cons s rest ih => exact ih (h.step s)

/-- After any run the answer is yes exactly if some member of one cluster now abbreviates some
member of the other and no refusal stands. -/
theorem clusterAcronym_clusterRun_iff (doc : Document) (unjudged : doc.Unjudged)
    (steps : List ClusterStep) (a b : ClusterId) :
    let d := doc.initializeClusters.clusterRun steps
    (d.clusterAcronym a b).1 = true ↔
      d.SomeAbbreviates a b ∧ ¬ doc.initializeClusters.RefusalStands steps a b := by
  intro d
  have start := unjudged.initializeClusters
  have remembered : d.Remembered := start.remembered.run steps
  have refused : d.knownAcronym? a b = some false ↔
      doc.initializeClusters.RefusalStands steps a b := by
    simp [d, start.remembered.refused_run_iff, start.knownAcronym?_eq]
  rw [← refused]
  cases known : d.knownAcronym? a b with
  | none => simp [clusterAcronym_of_unknown known, abbreviate_iff]
  | some v =>
    rw [clusterAcronym_of_known known]
    cases v with
    | true => simpa using remembered.affirmed a b known
    | false => simp

/-- A no that a later merge hands a yes to, in a run with two questions. -/
theorem clusterAcronym_clusterRun_handed_on :
    let doc := ofTexts ["IBM", "Apple", "International Business Machines"]
    let steps := [.ask 0 1, .ask 2 0, .merge 1 2]
    doc.Unjudged ∧
      ((doc.initializeClusters.clusterRun steps).clusterAcronym 0 1).1 = true ∧
      (doc.initializeClusters.clusterRun steps).SomeAbbreviates 0 1 ∧
      ¬ doc.initializeClusters.RefusalStands steps 0 1 := by
  intro doc steps
  have yes : ((doc.initializeClusters.clusterRun steps).clusterAcronym 0 1).1 = true := by
    decide +kernel
  have unjudged : doc.Unjudged := unjudged_ofTexts _
  exact ⟨unjudged, yes, (clusterAcronym_clusterRun_iff doc unjudged steps 0 1).mp yes⟩

/-- A refusal that stands when the winner gains the name that the other cluster abbreviates. -/
theorem clusterAcronym_stale :
    let doc := ofTexts ["IBM", "Apple", "International Business Machines"]
    let d := doc.initializeClusters.clusterRun [.ask 0 1, .merge 1 2]
    (d.clusterAcronym 0 1).1 = false ∧ d.SomeAbbreviates 0 1 := by
  intro doc d
  exact ⟨by decide +kernel, (d.abbreviate_iff 0 1).mp (by decide +kernel)⟩

end Document

end Discourse
