import Discourse.Proofs.Attribution.Course
import Discourse.Proofs.Attribution.Gain
import Mathlib.Algebra.GroupWithZero.Nat
import Mathlib.Algebra.Order.BigOperators.Group.Finset
/-!
# Counts by sieve

Each pass of a sieve counts the quotations that it gives a mention, and the count is kept under the
key of the sieve.  A sieve that is listed twice goes over the quotations twice, and then the count
of the later pass takes the place of the earlier one.  What is kept is therefore never too much, and
it is the number of the quotations that have gained a mention with the tag of the sieve exactly if
no pass of the sieve but the last one has changed anything (`attributeQuotes_tallied`).

The argument goes over the list of sieves from the left.  A pass adds to the parts gained as many
as it counts, all of them tagged by its own key (`Chain.Marked.tagged_pass`), so that a count which
is overwritten is missing in the end unless it was nothing.
-/

namespace Discourse

namespace Chain

variable {S σ β : Type} {c : Chain S σ β}

/-- The counts kept along a run, one for each pass of a sieve that is heard. -/
def tally (c : Chain S σ β) (heard : σ → Bool) (key : σ → String) :
    Scene S → Table String Nat → List σ → Table String Nat
  | _, t, [] => t
  | sc, t, sieve :: rest =>
    tally c heard key (c.pass sc sieve)
      (if heard sieve then t.insert (key sieve) (c.gain sc (c.pass sc sieve)).length else t) rest

/-- The answers of a chain are tagged by the keys of the sieves, and those not heard give none. -/
structure Marked (c : Chain S σ β) (heard : σ → Bool) (key : σ → String) (tag : β → String)
    (start : Scene S) : Prop where
  injective : Function.Injective key
  answer (sieve : σ) (sc : Scene S) (i : Nat) (b : β) : OnlyQuotes start sc →
    c.answer? sieve sc i = some b → heard sieve = true ∧ tag b = key sieve

/-- Every pass of a sieve which another pass of it follows has left everything as it was; `after`
says what there is after a list of sieves. -/
def OnlyLastGains {γ : Type} (after : List σ → γ) (sieves : List σ) (sieve : σ) : Prop :=
  ∀ before rest, sieves = before ++ sieve :: rest → sieve ∈ rest →
    after (before ++ [sieve]) = after before

theorem onlyLastGains_cons_iff {sc : Scene S} {first sieve : σ} {rest : List σ} :
    OnlyLastGains (c.run sc) (first :: rest) sieve ↔
      (first = sieve → sieve ∈ rest → c.pass sc first = sc) ∧
        OnlyLastGains (c.run (c.pass sc first)) rest sieve := by
  constructor
  · intro only
    refine ⟨?_, ?_⟩
    · rintro rfl again
      exact only [] rest rfl again
    · intro before after split again
      exact only (first :: before) after (by rw [split]; rfl) again
  · rintro ⟨here, later⟩ before after split again
    cases before with
    | nil =>
      obtain ⟨rfl, rfl⟩ := List.cons.inj split
      exact here rfl again
    | cons _ before =>
      obtain ⟨rfl, rfl⟩ := List.cons.inj split
      exact later before after rfl again

/-- The number of parts with a tag that are gained between two scenes. -/
def tagged (c : Chain S σ β) (tag : β → String) (k : String) (sc sc' : Scene S) : Nat :=
  ((c.gain sc sc').map tag).count k

theorem tagged_cons (tag : β → String) (k : String) (sc : Scene S) (sieve : σ) (rest : List σ) :
    c.tagged tag k sc (c.run sc (sieve :: rest)) =
      c.tagged tag k sc (c.pass sc sieve) +
        c.tagged tag k (c.pass sc sieve) (c.run (c.pass sc sieve) rest) := by
  simp only [tagged, List.count, List.countP_map]
  exact countP_gain_cons sc sieve rest _

namespace Marked

variable {heard : σ → Bool} {key : σ → String} {tag : β → String} {sc : Scene S}
  {sieves : List σ} {sieve : σ}

theorem run (marked : c.Marked heard key tag sc) (ran : List σ) :
    c.Marked heard key tag (c.run sc ran) where
  injective := marked.injective
  answer sieve sc' i b only := marked.answer sieve sc' i b ((onlyQuotes_run sc ran).trans only)

theorem pass (marked : c.Marked heard key tag sc) (sieve : σ) :
    c.Marked heard key tag (c.pass sc sieve) :=
  marked.run [sieve]

/-- Whatever a run gains is tagged by the key of a sieve of the run that is heard. -/
theorem exists_mem (marked : c.Marked heard key tag sc) (sieves : List σ) {b : β}
    (mem : b ∈ c.gain sc (c.run sc sieves)) :
    ∃ sieve ∈ sieves, heard sieve = true ∧ tag b = key sieve := by
  obtain ⟨i, q, -, -, answer⟩ := mem_gain_run mem
  obtain ⟨before, sieve, after, rfl, found, -⟩ := (firstAnswer?_eq_some_iff sc i sieves b).mp answer
  exact ⟨sieve, by simp, marked.answer sieve _ i b (onlyQuotes_turn sc before sieve i) found⟩

theorem tagged_eq_zero (marked : c.Marked heard key tag sc) (sieves : List σ)
    (absent : sieve ∉ sieves) :
    c.tagged tag (key sieve) sc (c.run sc sieves) = 0 := by
  refine List.count_eq_zero.mpr fun mem => ?_
  obtain ⟨b, gained, same⟩ := List.mem_map.mp mem
  obtain ⟨sieve', listed, -, key'⟩ := marked.exists_mem sieves gained
  have equal : sieve' = sieve := marked.injective (key'.symm.trans same)
  exact absent (equal ▸ listed)

/-- All that a pass gains is tagged by the key of its sieve. -/
theorem tagged_pass (marked : c.Marked heard key tag sc) (sieve : σ) :
    c.tagged tag (key sieve) sc (c.pass sc sieve) = (c.gain sc (c.pass sc sieve)).length := by
  rw [tagged, ← List.length_map tag, List.count_eq_length]
  intro k mem
  obtain ⟨b, gained, rfl⟩ := List.mem_map.mp mem
  obtain ⟨sieve', only, -, same⟩ := marked.exists_mem [sieve] gained
  rw [same, List.mem_singleton.mp only]

theorem tagged_pass_of_ne (marked : c.Marked heard key tag sc) {first : σ} (other : first ≠ sieve) :
    c.tagged tag (key sieve) sc (c.pass sc first) = 0 :=
  marked.tagged_eq_zero [first] (by simpa using other.symm)

/-! ## The counts in the end -/

theorem find?_tally_of_not_mem (marked : c.Marked heard key tag sc) (t : Table String Nat)
    (absent : sieve ∉ sieves) :
    (c.tally heard key sc t sieves).find? (key sieve) = t.find? (key sieve) := by
  induction sieves generalizing sc t with
  | nil => rfl
  | cons first rest ih =>
    rw [List.mem_cons, not_or] at absent
    obtain ⟨other, absent⟩ := absent
    rw [tally, ih (marked.pass first) _ absent]
    split
    · exact Table.find?_insert_of_ne t _ fun same => other (marked.injective same)
    · rfl

/-- The count of a sieve that is heard is what its last pass has gained: never more than all that
is tagged by its key, and all of it if the passes before have gained nothing. -/
theorem find?_tally (marked : c.Marked heard key tag sc) (t : Table String Nat)
    (listed : sieve ∈ sieves) (isHeard : heard sieve = true) :
    ∃ count, (c.tally heard key sc t sieves).find? (key sieve) = some count ∧
      count ≤ c.tagged tag (key sieve) sc (c.run sc sieves) ∧
      (count = c.tagged tag (key sieve) sc (c.run sc sieves) ↔
        OnlyLastGains (c.run sc) sieves sieve) := by
  induction sieves generalizing sc t with
  | nil => cases listed
  | cons first rest ih =>
    rw [tally, tagged_cons, onlyLastGains_cons_iff]
    by_cases later : sieve ∈ rest
    · -- the count of this pass will be replaced
      obtain ⟨count, found, least, exact_iff⟩ := ih (marked.pass first)
        (if heard first then t.insert (key first) (c.gain sc (c.pass sc first)).length else t) later
      refine ⟨count, found, by omega, ?_⟩
      rw [← exact_iff]
      by_cases same : first = sieve
      · subst same
        have quiet : c.pass sc first = sc ↔ (c.gain sc (c.pass sc first)).length = 0 :=
          (run_eq_iff sc [first]).trans List.length_eq_zero_iff.symm
        simp only [marked.tagged_pass, later, quiet, forall_const]
        omega
      · simp [marked.tagged_pass_of_ne same, same]
    · -- this is the last pass
      obtain rfl | elsewhere := List.mem_cons.mp listed
      · refine ⟨_, ?_, Nat.le_add_right _ _, ?_⟩
        · rw [(marked.pass sieve).find?_tally_of_not_mem _ later, if_pos isHeard,
            Table.find?_insert_self, ← marked.tagged_pass]
        · rw [(marked.pass sieve).tagged_eq_zero rest later]
          refine iff_of_true rfl ⟨fun _ again => absurd again later, ?_⟩
          rintro before after rfl again
          exact absurd (List.mem_append_right before List.mem_cons_self) later
      · exact absurd elsewhere later

theorem exists_of_find?_tally (marked : c.Marked heard key tag sc) {t : Table String Nat}
    {k : String} {count : Nat} (found : (c.tally heard key sc t sieves).find? k = some count) :
    t.find? k = some count ∨ ∃ sieve ∈ sieves, heard sieve = true ∧ key sieve = k := by
  induction sieves generalizing sc t with
  | nil => exact .inl found
  | cons first rest ih =>
    rcases ih (marked.pass first) found with early | ⟨sieve, listed, heard⟩
    · split at early
      · rw [Table.find?_insert] at early
        split at early
        next isHeard same => exact .inr ⟨first, List.mem_cons_self, isHeard, same.symm⟩
        next => exact .inl early
      · exact .inl early
    · exact .inr ⟨sieve, List.mem_cons_of_mem first listed, heard⟩

/-- A sieve that is not heard has nothing to say in any of its passes. -/
theorem onlyLastGains_of_unheard (marked : c.Marked heard key tag sc)
    (unheard : heard sieve = false) : OnlyLastGains (c.run sc) sieves sieve := by
  intro before rest _ _
  rw [run_append]
  refine (run_eq_iff _ [sieve]).mpr (List.eq_nil_iff_forall_not_mem.mpr fun b mem => ?_)
  obtain ⟨sieve', only, isHeard, -⟩ := (marked.run before).exists_mem [sieve] mem
  rw [List.mem_singleton.mp only, unheard] at isHeard
  cases isHeard

end Marked

end Chain

/-! ## Sums over keys -/

theorem Table.values_eq (t : Table String Nat) :
    t.values = t.keys.map fun k => (t.find? k).getD 0 := by
  rw [values, keys, List.map_map]
  refine List.map_congr_left fun entry mem => ?_
  show entry.2 = (t.find? entry.1).getD 0
  rw [(t.mem_entries_iff entry.1 entry.2).mp mem, Option.getD_some]

/-- Counts by tag of which none is too high add up to the whole if all are right. -/
theorem Table.sum_values_eq_length_iff {t : Table String Nat} {tags : List String}
    (listed : ∀ k ∈ tags, k ∈ t.keys) (least : ∀ k ∈ t.keys, (t.find? k).getD 0 ≤ tags.count k) :
    t.values.sum = tags.length ↔ ∀ k ∈ t.keys, (t.find? k).getD 0 = tags.count k := by
  have values : t.values.sum = ∑ k ∈ t.keys.toFinset, (t.find? k).getD 0 := by
    rw [List.sum_toFinset _ t.nodup_keys, ← t.values_eq]
  have whole : tags.length = ∑ k ∈ t.keys.toFinset, tags.count k := by
    have covered : ∀ k ∈ (tags : Multiset String), k ∈ t.keys.toFinset := fun k mem =>
      List.mem_toFinset.mpr (listed k mem)
    simpa only [Multiset.coe_count, Multiset.coe_card] using
      (Multiset.sum_count_eq_card covered).symm
  rw [values, whole, Finset.sum_eq_sum_iff_of_le fun k mem => least k (List.mem_toFinset.mp mem)]
  simp only [List.mem_toFinset]

/-! ## Attributions -/

/-- The counts `tally` of a list of sieves, measured by the tags of what was gained with it: no
count is too high, and one is right exactly if no pass of its sieve but the last has gained
anything.  The counts add up to all that was gained exactly if this holds of every sieve. -/
structure Tallied {σ γ : Type} (tally : Table String Nat) (key : σ → String) (tags : List String)
    (after : List σ → γ) (sieves : List σ) : Prop where
  entry (k : String) (count : Nat) : tally.find? k = some count →
    ∃ sieve ∈ sieves, key sieve = k ∧ count ≤ tags.count k ∧
      (count = tags.count k ↔ Chain.OnlyLastGains after sieves sieve)
  listed : ∀ k ∈ tags, (tally.find? k).isSome
  sum : tally.values.sum = tags.length ↔ ∀ sieve, Chain.OnlyLastGains after sieves sieve
  once : sieves.Nodup → tally.values.sum = tags.length ∧
    ∀ k count, tally.find? k = some count → count = tags.count k

section Results

variable {ε σ γ : Type} {after : List σ → γ} {result : List σ → Except ε γ} {sieves : List σ}
  (passes : ∀ ran rest, sieves = ran ++ rest → result ran = .ok (after ran))

include passes

/-- Where all of the passes have a result, the results may be compared instead. -/
theorem Chain.onlyLastGains_result_iff {sieve : σ} :
    OnlyLastGains result sieves sieve ↔ OnlyLastGains after sieves sieve := by
  have each (before rest : List σ) (split : sieves = before ++ sieve :: rest) :
      result (before ++ [sieve]) = result before ↔ after (before ++ [sieve]) = after before := by
    rw [passes before _ split, passes (before ++ [sieve]) rest (by simp [split]), Except.ok.injEq]
  constructor
  · intro only before rest split again
    exact (each before rest split).mp (only before rest split again)
  · intro only before rest split again
    exact (each before rest split).mpr (only before rest split again)

theorem Tallied.of_results {tally : Table String Nat} {key : σ → String} {tags : List String}
    (tallied : Tallied tally key tags after sieves) : Tallied tally key tags result sieves where
  entry k count found := by
    simpa only [Chain.onlyLastGains_result_iff passes] using tallied.entry k count found
  listed := tallied.listed
  sum := by simpa only [Chain.onlyLastGains_result_iff passes] using tallied.sum
  once := tallied.once

end Results

namespace Chain

variable {S σ β : Type} {c : Chain S σ β}

theorem onlyLastGains_of_nodup {γ : Type} {after : List σ → γ} {sieves : List σ}
    (once : sieves.Nodup) (sieve : σ) : OnlyLastGains after sieves sieve := by
  rintro before rest rfl again
  have distinct := (List.nodup_append.mp once).2.1
  exact absurd again (List.nodup_cons.mp distinct).1

namespace Marked

variable {heard : σ → Bool} {key : σ → String} {tag : β → String} {sc : Scene S}
  {sieves : List σ} {k : String}

theorem exists_entry (marked : c.Marked heard key tag sc) {count : Nat}
    (found : (c.tally heard key sc {} sieves).find? k = some count) :
    ∃ sieve ∈ sieves, key sieve = k ∧ count ≤ c.tagged tag k sc (c.run sc sieves) ∧
      (count = c.tagged tag k sc (c.run sc sieves) ↔
        OnlyLastGains (c.run sc) sieves sieve) := by
  rcases marked.exists_of_find?_tally found with early | ⟨sieve, mem, isHeard, rfl⟩
  · cases early
  · obtain ⟨count', found', least, exact_iff⟩ := marked.find?_tally {} mem isHeard
    cases found.symm.trans found'
    exact ⟨sieve, mem, rfl, least, exact_iff⟩

theorem isSome_find?_tally (marked : c.Marked heard key tag sc)
    (mem : k ∈ (c.gain sc (c.run sc sieves)).map tag) :
    ((c.tally heard key sc {} sieves).find? k).isSome := by
  obtain ⟨b, gained, rfl⟩ := List.mem_map.mp mem
  obtain ⟨sieve, mem, isHeard, same⟩ := marked.exists_mem sieves gained
  obtain ⟨count, found, -⟩ := marked.find?_tally {} mem isHeard
  rw [same, found, Option.isSome_some]

theorem sum_tally_iff (marked : c.Marked heard key tag sc) (sieves : List σ) :
    (c.tally heard key sc {} sieves).values.sum =
        ((c.gain sc (c.run sc sieves)).map tag).length ↔
      ∀ sieve, OnlyLastGains (c.run sc) sieves sieve := by
  rw [Table.sum_values_eq_length_iff]
  · constructor
    · intro right sieve before rest split again
      cases isHeard : heard sieve with
      | false => exact marked.onlyLastGains_of_unheard isHeard before rest split again
      | true =>
        have mem : sieve ∈ sieves := by simp [split]
        obtain ⟨count, found, -, exact_iff⟩ := marked.find?_tally {} mem isHeard
        have known := right (key sieve) ((Table.mem_keys_iff _ _).mpr (by rw [found]; rfl))
        rw [found, Option.getD_some] at known
        exact exact_iff.mp known before rest split again
    · intro only k mem
      obtain ⟨count, found⟩ := Option.isSome_iff_exists.mp ((Table.mem_keys_iff _ _).mp mem)
      obtain ⟨sieve, -, rfl, -, exact_iff⟩ := marked.exists_entry found
      rw [found, Option.getD_some, exact_iff.mpr (only sieve), tagged]
  · intro k mem
    exact (Table.mem_keys_iff _ _).mpr (marked.isSome_find?_tally mem)
  · intro k mem
    obtain ⟨count, found⟩ := Option.isSome_iff_exists.mp ((Table.mem_keys_iff _ _).mp mem)
    obtain ⟨-, -, -, least, -⟩ := marked.exists_entry found
    rwa [found, Option.getD_some]

theorem tallied (marked : c.Marked heard key tag sc) (sieves : List σ) :
    Tallied (c.tally heard key sc {} sieves) key ((c.gain sc (c.run sc sieves)).map tag) (c.run sc)
      sieves where
  entry _ _ found := marked.exists_entry found
  listed _ mem := marked.isSome_find?_tally mem
  sum := marked.sum_tally_iff sieves
  once once := by
    refine ⟨(marked.sum_tally_iff sieves).mpr (onlyLastGains_of_nodup once), ?_⟩
    intro k count found
    obtain ⟨sieve, -, -, -, exact_iff⟩ := marked.exists_entry found
    exact exact_iff.mpr (onlyLastGains_of_nodup once sieve)

end Marked

end Chain

/-! ## The two chains -/

/-- What can be found by its key has a key of its own. -/
theorem injective_of_find? {α : Type} {all : List α} {key : α → String}
    (found : ∀ a, all.find? (fun b => key b == key a) = some a) : Function.Injective key := by
  intro a b same
  have here := found a
  rw [same, found b] at here
  exact (Option.some.inj here).symm

theorem QuoteSieve.find?_key (sieve : QuoteSieve) :
    QuoteSieve.all.find? (fun s => s.key == sieve.key) = some sieve := by
  cases sieve <;> decide

theorem SpeakerSieve.find?_key (sieve : SpeakerSieve) :
    SpeakerSieve.all.find? (fun s => s.key == sieve.key) = some sieve := by
  cases sieve <;> decide

namespace Chain

variable {S σ β : Type} {c : Chain S σ β}

/-- The count of a pass goes up with the quotations that are filled. -/
def Counts (c : Chain S σ β) (state state' : Scene S × Nat) : Prop :=
  state'.2 + c.filled state.1 = state.2 + c.filled state'.1

theorem counts_foldl {step : Scene S × Nat → Nat → Scene S × Nat}
    (counts : ∀ state i, c.Counts state (step state i)) (state : Scene S × Nat) (is : List Nat) :
    c.Counts state (is.foldl step state) := by
  refine List.foldlRecOn (motive := c.Counts state) is step rfl ?_
  intro state' sofar i _
  have next := counts state' i
  rw [Counts] at sofar next ⊢
  omega

theorem Counts.length_gain {sc : Scene S} {sieve : σ} {count : Nat}
    (counts : c.Counts (sc, 0) (c.pass sc sieve, count)) :
    count = (c.gain sc (c.pass sc sieve)).length := by
  have grown := filled_run (c := c) sc [sieve]
  have single : c.run sc [sieve] = c.pass sc sieve := rfl
  rw [single] at grown
  rw [Counts] at counts
  dsimp only at counts
  omega

section Mentions

variable [QuoteScorer S]

theorem counts_sieveMention {sieve : QuoteSieve} {state state' : Scene S × Nat} {i : Nat}
    (visited : Scene.sieveMention sieve state i = .ok state') :
    mentions.Counts state state' := by
  cases full : state.1.hasMention i with
  | true =>
    cases (Scene.sieveMention_of_full full).symm.trans visited
    rfl
  | false =>
    rw [Scene.sieveMention_of_empty full] at visited
    obtain ⟨found?, resolved, rfl⟩ := map_eq_ok_iff.mp visited
    cases found? with
    | none => rfl
    | some found =>
      obtain ⟨q, here⟩ := QuoteSieve.exists_of_resolve resolved
      rw [Scene.hasMention, here, Option.bind_some, Option.isSome_eq_false_iff,
        Option.isNone_iff_eq_none] at full
      show state.2 + 1 + mentions.filled state.1 =
        state.2 + mentions.filled (state.1.modifyQuote i fun q => q.withMention found sieve.key)
      rw [filled_modifyQuote (c := mentions) here full rfl]
      omega

theorem counts_foldlM_sieveMention {sieve : QuoteSieve} {state state' : Scene S × Nat}
    {is : List Nat} (swept : is.foldlM (Scene.sieveMention sieve) state = .ok state') :
    mentions.Counts state state' := by
  induction is generalizing state with
  | nil =>
    cases swept
    rfl
  | cons i rest ih =>
    rw [List.foldlM_cons] at swept
    obtain ⟨next, visited, swept⟩ := bind_eq_ok_iff.mp swept
    have first := counts_sieveMention visited
    have others := ih swept
    rw [Counts] at first others ⊢
    omega

/-- Whether a sieve is run at all: the supervised one needs a scorer. -/
def hears (scorer? : Option S) (sieve : QuoteSieve) : Bool :=
  decide (sieve ≠ .supervised) || scorer?.isSome

theorem tally_of_passMentions {sc : Scene S} {t : Table String Nat} {sieve : QuoteSieve}
    {state : Scene S × Table String Nat} (passed : Scene.passMentions (sc, t) sieve = .ok state) :
    state.2 = if hears sc.scorer? sieve then
        t.insert sieve.key (mentions.gain sc (mentions.pass sc sieve)).length
      else t := by
  unfold Scene.passMentions at passed
  split at passed
  next skipped =>
    obtain ⟨rfl, unscored⟩ := skipped
    have unscored : sc.scorer? = none := Option.isNone_iff_eq_none.mp unscored
    cases passed
    simp [hears, unscored]
  next run =>
    obtain ⟨⟨sc', count⟩, swept, done⟩ := bind_eq_ok_iff.mp passed
    cases done
    have scene := ((Scene.foldlM_sieveMention_eq_ok_iff (sc, 0) _).mp
      (map_eq_ok_iff.mpr ⟨_, swept, rfl⟩)).2
    have counts := counts_foldlM_sieveMention swept
    rw [← show mentions.pass sc sieve = sc' from scene] at counts
    rw [if_pos]
    · exact congrArg (t.insert sieve.key) counts.length_gain
    · simpa [hears, or_iff_not_imp_left, ← Option.isSome_iff_ne_none] using run

theorem tally_of_foldlM_passMentions {sieves : List QuoteSieve} {sc : Scene S}
    {t : Table String Nat} {state : Scene S × Table String Nat}
    (passed : sieves.foldlM Scene.passMentions (sc, t) = .ok state) :
    state.2 = mentions.tally (hears sc.scorer?) QuoteSieve.key sc t sieves := by
  induction sieves generalizing sc t with
  | nil =>
    cases passed
    rfl
  | cons sieve rest ih =>
    rw [List.foldlM_cons] at passed
    obtain ⟨⟨sc', t'⟩, first, passed⟩ := bind_eq_ok_iff.mp passed
    have scene : mentions.pass sc sieve = sc' :=
      (Scene.passMentions_eq_ok_iff.mp (map_eq_ok_iff.mpr ⟨_, first, rfl⟩)).2
    have scorer : (mentions.pass sc sieve).scorer? = sc.scorer? := by
      show (mentions.run sc [sieve]).scorer? = sc.scorer?
      rw [(onlyQuotes_run (c := mentions) sc [sieve]).rest]
    rw [ih passed, tally, ← tally_of_passMentions first, ← scene, scorer]

theorem marked_mentions (sc : Scene S) :
    mentions.Marked (hears sc.scorer?) QuoteSieve.key QuoteMention.sieve sc where
  injective := injective_of_find? QuoteSieve.find?_key
  answer sieve sc' i m only answer := by
    obtain ⟨found, resolved, rfl⟩ := Option.map_eq_some_iff.mp answer
    refine ⟨?_, rfl⟩
    cases scored : sc.scorer? with
    | some s => simp [hears]
    | none =>
      have unscored : sc'.scorer? = none := by rw [only.rest, scored]
      refine Bool.or_eq_true_iff.mpr (.inl (decide_eq_true ?_))
      rintro rfl
      rw [QuoteSieve.resolve?_eq_some_iff, QuoteSieve.resolve] at resolved
      split at resolved
      · cases resolved
      · simp [Scene.bestCandidate?, unscored] at resolved

end Mentions

section Speakers

theorem counts_sieveSpeaker (sieve : SpeakerSieve) (state : Scene S × Nat) (i : Nat) :
    speakers.Counts state (Scene.sieveSpeaker sieve state i) := by
  unfold Scene.sieveSpeaker
  split
  next => rfl
  next empty =>
    split
    next => rfl
    next found answer =>
      rw [SpeakerSieve.resolve?] at answer
      split at answer
      next => cases answer
      next q here =>
        rw [Scene.hasSpeaker, here, Option.bind_some, Option.not_isSome_iff_eq_none] at empty
        rw [Counts, filled_modifyQuote (c := speakers) here empty rfl]
        omega

theorem foldl_passSpeakers_tally (sieves : List SpeakerSieve) (sc : Scene S)
    (t : Table String Nat) :
    (sieves.foldl Scene.passSpeakers (sc, t)).2 =
      speakers.tally (fun _ => true) SpeakerSieve.key sc t sieves := by
  induction sieves generalizing sc t with
  | nil => rfl
  | cons sieve rest ih =>
    have counts := counts_foldl (counts_sieveSpeaker sieve) (sc, 0)
      (List.range sc.doc.quotes.length)
    have scene := foldl_sieveSpeaker sieve (sc, 0) sc.doc.quotes.length
    rw [← Prod.eta (List.foldl _ _ _), scene] at counts
    have pass : Scene.passSpeakers (sc, t) sieve = (speakers.pass sc sieve,
        t.insert sieve.key (speakers.gain sc (speakers.pass sc sieve)).length) :=
      Prod.ext scene (congrArg (t.insert sieve.key) counts.length_gain)
    rw [List.foldl_cons, pass, ih, tally, if_pos rfl]

theorem marked_speakers (sc : Scene S) :
    speakers.Marked (fun _ => true) SpeakerSieve.key QuoteSpeaker.sieve sc where
  injective := injective_of_find? SpeakerSieve.find?_key
  answer sieve sc' i s _ answer := by
    obtain ⟨name, -, rfl⟩ := Option.map_eq_some_iff.mp answer
    exact ⟨rfl, rfl⟩

end Speakers

end Chain

namespace Document

variable {S : Type} [QuoteScorer S] {doc final : Document} {summary : AttributionSummary}
  {lex : Lexicon} {settings : AttributionSettings} {scorer? : Option S}

/-- The counts by sieve against the tags of what an attribution has brought.  A count is never too
high; it is right exactly if every pass of its sieve but the last has changed nothing, and the
counts add up to all that was gained exactly if this holds of every sieve listed. -/
theorem attributeQuotes_tallied
    (outcome : doc.attributeQuotes lex settings scorer? = .ok (final, summary)) :
    let start := doc.readyForAttribution.scene lex settings scorer?
    ∃ mentioned, start.mentionedBy settings.quoteSieves = .ok mentioned ∧
      Tallied summary.quoteSieves QuoteSieve.key
        ((gained (start.doc.quotes.map Quotation.mention?)
          (final.quotes.map Quotation.mention?)).map QuoteMention.sieve)
        start.mentionedBy settings.quoteSieves ∧
      Tallied summary.speakerSieves SpeakerSieve.key
        ((gained (start.doc.quotes.map Quotation.speaker?)
          (final.quotes.map Quotation.speaker?)).map QuoteSpeaker.sieve)
        (fun ran => (ran.foldl Scene.passSpeakers (mentioned, {})).1) settings.speakerSieves := by
  intro start
  obtain ⟨passable, shape⟩ :=
    afterAttribution_eq_ok_iff_passable.mp (afterAttribution_eq_ok_iff.mpr ⟨summary, outcome⟩)
  obtain ⟨mentioned, quoteSieves, withCanonical, passed, -, rfl⟩ :=
    attributeQuotes_eq_ok_iff.mp outcome
  have reached : start.mentionedBy settings.quoteSieves = .ok mentioned :=
    map_eq_ok_iff.mpr ⟨_, passed, rfl⟩
  obtain ⟨-, mentioned_eq⟩ := Scene.mentionedBy_eq_ok_iff.mp reached
  obtain ⟨-, pointwise⟩ := mapM_canonicalized_eq_ok_iff.mp shape
  have mentions : final.quotes.map Quotation.mention? =
      Chain.mentions.parts (Chain.mentions.run start settings.quoteSieves) :=
    (map_of_canonicalized (fun _ _ => rfl) pointwise).trans
      (Chain.map_quotes_run (c := Chain.speakers) (fun _ _ => rfl) settings.speakerSieves _)
  have speakers : final.quotes.map Quotation.speaker? =
      Chain.speakers.parts (Chain.speakers.run mentioned settings.speakerSieves) := by
    rw [← mentioned_eq]
    exact map_of_canonicalized (fun _ _ => rfl) pointwise
  have silent : start.doc.quotes.map Quotation.speaker? = Chain.speakers.parts mentioned := by
    rw [← mentioned_eq]
    exact (Chain.map_quotes_run (c := Chain.mentions) (fun _ _ => rfl) settings.quoteSieves _).symm
  refine ⟨mentioned, reached, ?_, ?_⟩
  · have passes (ran rest : List QuoteSieve) (split : settings.quoteSieves = ran ++ rest) :
        start.mentionedBy ran = .ok (Chain.mentions.run start ran) := by
      rw [Passable, split] at passable
      exact Scene.mentionedBy_eq_ok_iff.mpr ⟨((Scene.passable_append ran rest).mp passable).1, rfl⟩
    rw [show quoteSieves = _ from Chain.tally_of_foldlM_passMentions passed, mentions]
    exact ((Chain.marked_mentions start).tallied settings.quoteSieves).of_results passes
  · rw [Chain.foldl_passSpeakers_tally, speakers, silent,
      funext fun ran => Chain.foldl_passSpeakers ran (mentioned, {})]
    exact (Chain.marked_speakers mentioned).tallied settings.speakerSieves

/-- Three turns, a paragraph each.  The conversational sieve has nothing to say before the third
turn has a mention, so that its second pass gains all that is tagged by it; the deterministic sieve
for speakers gains all in its first pass, and its second one leaves a count of nothing. -/
theorem attributeQuotes_tallied_twice :
    let turn := fun (word : String) =>
      [Token.ofWord "\"" "``", Token.ofWord word "UH", Token.ofWord "\"" "''"]
    let joe := { Token.ofWord "Joe" "NNP" with ner := "PERSON" }
    let doc := ofSentences "" [{ tokens := turn "Hi" }, { tokens := turn "Yes" },
      { tokens := turn "Bye" ++ [Token.ofWord "said" "VBD", joe] }]
    let settings := { AttributionSettings.default with
      quoteSieves := [.conversational, .oneName, .conversational]
      speakerSieves := [.deterministic, .deterministic] }
    let scorer? : Option Scorer := none
    let start := doc.readyForAttribution.scene default settings scorer?
    ∃ final summary mentioned, doc.attributeQuotes default settings scorer? = .ok (final, summary) ∧
      summary.quoteSieves.entries = [("conv", 1), ("onename", 1)] ∧
      summary.speakerSieves.entries = [("det", 0)] ∧
      start.mentionedBy settings.quoteSieves = .ok mentioned ∧
      Tallied summary.quoteSieves QuoteSieve.key
        ((gained (start.doc.quotes.map Quotation.mention?)
          (final.quotes.map Quotation.mention?)).map QuoteMention.sieve)
        start.mentionedBy settings.quoteSieves ∧
      Tallied summary.speakerSieves SpeakerSieve.key
        ((gained (start.doc.quotes.map Quotation.speaker?)
          (final.quotes.map Quotation.speaker?)).map QuoteSpeaker.sieve)
        (fun ran => (ran.foldl Scene.passSpeakers (mentioned, {})).1) settings.speakerSieves := by
  intro turn joe doc settings scorer? start
  have found : ((doc.attributeQuotes default settings scorer?).map fun result =>
      (result.2.quoteSieves.entries, result.2.speakerSieves.entries)) =
      .ok ([("conv", 1), ("onename", 1)], [("det", 0)]) := by
    decide +kernel
  obtain ⟨⟨final, summary⟩, outcome, entries⟩ := map_eq_ok_iff.mp found
  obtain ⟨quoteEntries, speakerEntries⟩ := Prod.mk.inj entries
  obtain ⟨mentioned, tallied⟩ := attributeQuotes_tallied outcome
  exact ⟨final, summary, mentioned, outcome, quoteEntries, speakerEntries, tallied⟩

/-- A sieve that is named twice finds everything the first time, and its count is that of the second
time. -/
theorem attributeQuotes_trigram_twice :
    let said := { Token.ofWord "said" "VBD" with baseForm := "say" }
    let joe := { Token.ofWord "Joe" "NNP" with ner := "PERSON" }
    let doc := ofSentences "" [{ tokens :=
      [Token.ofWord "\"" "``", Token.ofWord "Hi" "UH", Token.ofWord "\"" "''", said, joe] }]
    let scorer? : Option Scorer := none
    ∃ settings final summary, AttributionSettings.ofLists "tri,tri" "det" = .ok settings ∧
      doc.attributeQuotes .default settings scorer? = .ok (final, summary) ∧
      summary.quoteSieves.entries = [("tri", 0)] ∧
      (gained (doc.readyForAttribution.quotes.map Quotation.mention?)
        (final.quotes.map Quotation.mention?)).map QuoteMention.sieve = ["tri"] := by
  intro said joe doc scorer?
  let settings := { AttributionSettings.default with
    quoteSieves := [.trigram, .trigram], speakerSieves := [.deterministic] }
  have found : (doc.attributeQuotes .default settings scorer?).map (fun result =>
      (result.2.quoteSieves.entries, (gained (doc.readyForAttribution.quotes.map
        Quotation.mention?) (result.1.quotes.map Quotation.mention?)).map QuoteMention.sieve)) =
      .ok ([("tri", 0)], ["tri"]) := by
    decide +kernel
  obtain ⟨⟨final, summary⟩, outcome, both⟩ := map_eq_ok_iff.mp found
  obtain ⟨entries, tags⟩ := Prod.mk.inj both
  exact ⟨settings, final, summary, rfl, outcome, entries, tags⟩

end Document

end Discourse
