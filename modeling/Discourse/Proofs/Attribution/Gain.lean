import Discourse.Proofs.Attribution.Chain
import Mathlib.Data.List.Forall2
/-!
# What a run gains

A chain fills parts that are empty and touches no other, so that what is there in the end was there
at the start or has been gained on the way (`Filling.countP_any`).  What a run gains is what its
first pass gains together with what the others do, and a run that gains nothing has changed nothing
(`Chain.run_eq_iff`).
-/

namespace Discourse

/-! ## Parts gained -/

section Gained

variable {β : Type} {before after : List (Option β)}

/-- What a row has gained in a later row: the parts of those that came without. -/
def gained (before after : List (Option β)) : List β :=
  (before.zip after).filterMap fun (old?, new?) => if old?.isSome then none else new?

/-- A row in which nothing that was there has changed. -/
def Filling (before after : List (Option β)) : Prop :=
  List.Forall₂ (fun old? new? => ∀ b, old? = some b → new? = some b) before after

theorem mem_gained_iff {b : β} :
    b ∈ gained before after ↔
      ∃ i : Nat, before[i]? = some none ∧ after[i]? = some (some b) := by
  have entry (old? new? : Option β) :
      (if old?.isSome then none else new?) = some b ↔ old? = none ∧ new? = some b := by
    cases old? <;> simp
  simp only [gained, List.mem_filterMap, Prod.exists, entry]
  constructor
  · rintro ⟨_, _, mem, rfl, rfl⟩
    obtain ⟨i, place⟩ := List.getElem?_of_mem mem
    exact ⟨i, List.getElem?_zip_eq_some.mp place⟩
  · rintro ⟨i, here, there⟩
    exact ⟨none, some b, List.mem_of_getElem? (List.getElem?_zip_eq_some.mpr ⟨here, there⟩), rfl,
      rfl⟩

/-- What is there in the end was there at the start or has been gained. -/
theorem Filling.countP_any (filling : Filling before after) (p : β → Bool) :
    after.countP (Option.any p) =
      before.countP (Option.any p) + (gained before after).countP p := by
  induction filling with
  | nil => rfl
  | @cons old? new? before after kept _ ih =>
    have rest : gained (old? :: before) (new? :: after) =
        (if old?.isSome then none else new?).toList ++ gained before after := by
      simp only [gained, List.zip_cons_cons, List.filterMap_cons]
      split <;> simp_all
    rw [rest, List.countP_append, List.countP_cons, List.countP_cons, ih]
    cases old? with
    | some b =>
      rw [kept b rfl]
      simp
      omega
    | none =>
      cases new? with
      | none => simp
      | some b =>
        simp [List.countP_cons]
        omega

end Gained

namespace Chain

variable {S σ β : Type} (c : Chain S σ β)

/-- The parts of all quotations that a chain may fill. -/
def parts (sc : Scene S) : List (Option β) := sc.doc.quotes.map c.part?

/-- The parts gained between two scenes. -/
def gain (sc sc' : Scene S) : List β := gained (c.parts sc) (c.parts sc')

variable {c}

theorem getElem?_parts (sc : Scene S) (i : Nat) :
    (c.parts sc)[i]? = (sc.doc.quotes[i]?).map c.part? := List.getElem?_map

theorem filling_run (sc : Scene S) (sieves : List σ) :
    Filling (c.parts sc) (c.parts (c.run sc sieves)) := by
  refine List.forall₂_iff_get.mpr ⟨?_, ?_⟩
  · rw [parts, parts, List.length_map, List.length_map, (onlyQuotes_run sc sieves).length]
  · intro i inside inside' b full
    have before := List.getElem?_eq_getElem inside
    have after := List.getElem?_eq_getElem inside'
    rw [List.get_eq_getElem] at full ⊢
    rw [full, getElem?_parts, Option.map_eq_some_iff] at before
    obtain ⟨q, here, full⟩ := before
    rw [getElem?_parts, quote_run, here, Option.map_some, Option.map_some, part?_settle, full,
      Option.some_or, Option.some.injEq] at after
    exact after.symm

/-- Who gains a part in a run has none at the start and gets an answer. -/
theorem mem_gain_run {sc : Scene S} {sieves : List σ} {b : β}
    (mem : b ∈ c.gain sc (c.run sc sieves)) :
    ∃ i q, sc.doc.quotes[i]? = some q ∧ c.part? q = none ∧
      c.firstAnswer? sc i sieves = some b := by
  obtain ⟨i, before, after⟩ := mem_gained_iff.mp mem
  rw [getElem?_parts, Option.map_eq_some_iff] at before
  obtain ⟨q, here, empty⟩ := before
  rw [getElem?_parts, quote_run, here, Option.map_some, Option.map_some, part?_settle, empty,
    Option.none_or, Option.some.injEq] at after
  exact ⟨i, q, here, empty, after⟩

/-- A run in which nobody gains a part leaves the scene as it is. -/
theorem run_eq_iff (sc : Scene S) (sieves : List σ) :
    c.run sc sieves = sc ↔ c.gain sc (c.run sc sieves) = [] := by
  constructor
  · intro same
    refine List.eq_nil_iff_forall_not_mem.mpr fun b mem => ?_
    rw [same] at mem
    obtain ⟨i, before, after⟩ := mem_gained_iff.mp mem
    rw [before] at after
    cases after
  · intro none
    have quotes : (c.run sc sieves).doc.quotes = sc.doc.quotes := by
      refine List.ext_getElem? fun i => ?_
      rw [quote_run]
      cases here : sc.doc.quotes[i]? with
      | none => rfl
      | some q =>
        refine congrArg some ?_
        cases part : c.part? q with
        | some b => exact c.settle_of_part? part _
        | none =>
          cases answer : c.firstAnswer? sc i sieves with
          | none => exact c.settle_none q
          | some b =>
            have mem : b ∈ c.gain sc (c.run sc sieves) := by
              refine mem_gained_iff.mpr ⟨i, ?_, ?_⟩
              · rw [getElem?_parts, here, Option.map_some, part]
              · rw [getElem?_parts, quote_run, here, Option.map_some, Option.map_some, part?_settle,
                  part, answer, Option.none_or]
            rw [none] at mem
            cases mem
    rw [(onlyQuotes_run sc sieves).rest, quotes]
    rfl

/-- What a run gains is gained in its first pass or in the others. -/
theorem countP_gain_cons (sc : Scene S) (sieve : σ) (rest : List σ) (p : β → Bool) :
    (c.gain sc (c.run sc (sieve :: rest))).countP p =
      (c.gain sc (c.pass sc sieve)).countP p +
        (c.gain (c.pass sc sieve) (c.run (c.pass sc sieve) rest)).countP p := by
  have whole := (filling_run (c := c) sc (sieve :: rest)).countP_any p
  have first := (filling_run (c := c) sc [sieve]).countP_any p
  have later := (filling_run (c := c) (c.pass sc sieve) rest).countP_any p
  have split : c.run sc (sieve :: rest) = c.run (c.pass sc sieve) rest := rfl
  have single : c.run sc [sieve] = c.pass sc sieve := rfl
  rw [split] at whole ⊢
  rw [single] at first
  rw [gain, gain, gain]
  omega

/-! ## How many parts are filled -/

/-- The number of quotations whose part is filled. -/
def filled (c : Chain S σ β) (sc : Scene S) : Nat := (c.parts sc).countP Option.isSome

theorem filled_run (sc : Scene S) (sieves : List σ) :
    c.filled (c.run sc sieves) = c.filled sc + (c.gain sc (c.run sc sieves)).length := by
  have grown := (filling_run (c := c) sc sieves).countP_any fun _ => true
  have all (row : List (Option β)) : row.countP (Option.any fun _ => true) =
      row.countP Option.isSome :=
    List.countP_congr fun b? _ => by cases b? <;> simp
  rw [all, all, List.countP_true] at grown
  exact grown

theorem filled_modifyQuote {sc : Scene S} {i : Nat} {q : Quotation} {f : Quotation → Quotation}
    (here : sc.doc.quotes[i]? = some q) (empty : c.part? q = none)
    (fills : (c.part? (f q)).isSome) : c.filled (sc.modifyQuote i f) = c.filled sc + 1 := by
  obtain ⟨inside, rfl⟩ := List.getElem?_eq_some_iff.mp here
  obtain ⟨before, q, after, split, rfl, modified⟩ := List.exists_of_modify f inside
  have same : sc.doc.quotes[before.length] = q := by simp [split]
  rw [same] at empty fills
  show (List.map c.part? (sc.doc.quotes.modify before.length f)).countP _ =
    (List.map c.part? sc.doc.quotes).countP _ + 1
  rw [modified, split]
  simp [empty, fills, List.countP_append]
  omega

end Chain

end Discourse
