import Discourse.Proofs.Mention.Numbering
import Mathlib.Data.List.Perm.Subperm
/-!
# Claiming

Twins are found by two policies, in passes that each hold the gold mentions nobody has claimed yet.
What a pass may do is the same for all of them (`Matching`): every predicted mention stays where it
is, one that claims nothing keeps its id, and the ids claimed together with the gold mentions left
over are no more than the ids claimed before together with the gold mentions there were.  A pass
follows from what happens at one mention (`Matching.keep`, `Matching.claim`), passes follow each
other (`Matching.trans`), and sentences stand side by side (`Matching.append`).
-/

namespace Discourse

/-- The ids that mentions have claimed. -/
def claims (ms : List Mention) : List MentionId := (ms.filter Mention.hasTwin).map Mention.id

/-- The ids of the mentions that have claimed nothing. -/
def unclaiming (ms : List Mention) : List MentionId :=
  (ms.filter fun m => !m.hasTwin).map Mention.id

theorem claims_eq_nil {ms : List Mention} (none : ∀ m ∈ ms, m.hasTwin = false) :
    claims ms = [] := by
  rw [claims, List.map_eq_nil_iff, List.filter_eq_nil_iff]
  intro m mem
  simp [none m mem]

theorem mem_claims_iff {ms : List Mention} {id : MentionId} :
    id ∈ claims ms ↔ ∃ m ∈ ms, m.hasTwin = true ∧ m.id = id := by
  simp [claims, and_assoc]

theorem claims_append (ms ms' : List Mention) : claims (ms ++ ms') = claims ms ++ claims ms' := by
  simp [claims]

theorem claims_append_unclaiming_perm (ms : List Mention) :
    (claims ms ++ unclaiming ms).Perm (ms.map Mention.id) := by
  have parts := (List.filter_append_perm Mention.hasTwin ms).map Mention.id
  rw [List.map_append] at parts
  exact parts

/-- What a pass over some mentions does, with the gold mentions before it and those left over. -/
structure Matching (gold left row out : List Mention) : Prop where
  sites : out.map Mention.site = row.map Mention.site
  claimed : (claims out ++ left.map Mention.id).Subperm (claims row ++ gold.map Mention.id)
  unclaimed : (unclaiming out).Sublist (unclaiming row)

namespace Matching

variable {gold gold' mid left left' row row' out out' : List Mention} {m g : Mention}

theorem nil (h : (left.map Mention.id).Subperm (gold.map Mention.id)) :
    Matching gold left [] [] :=
  ⟨rfl, h, .slnil⟩

theorem unchanged : Matching gold [] row row where
  sites := rfl
  claimed := by
    rw [List.map_nil, List.append_nil]
    exact (List.sublist_append_left _ _).subperm
  unclaimed := .refl _

theorem keep (h : Matching gold left row out) : Matching gold left (m :: row) (m :: out) where
  sites := by rw [List.map_cons, h.sites, List.map_cons]
  claimed := by
    cases twin : m.hasTwin with
    | true => simpa [claims, twin, List.subperm_cons] using h.claimed
    | false => simpa [claims, twin] using h.claimed
  unclaimed := by
    cases twin : m.hasTwin with
    | true => simpa [unclaiming, twin] using h.unclaimed
    | false => simpa [unclaiming, twin] using h.unclaimed

theorem claim {id : MentionId} (h : Matching gold' left row out) (new : m.hasTwin = false)
    (taken : (id :: gold'.map Mention.id).Subperm (gold.map Mention.id)) :
    Matching gold left (m :: row) (m.claiming id :: out) where
  sites := by
    rw [List.map_cons, h.sites, List.map_cons]
    rfl
  claimed := by
    have claimedNow : claims (m.claiming id :: out) = id :: claims out := rfl
    have claimedBefore : claims (m :: row) = claims row := by simp [claims, new]
    rw [claimedNow, claimedBefore]
    have later : (id :: (claims out ++ left.map Mention.id)).Subperm
        (id :: (claims row ++ gold'.map Mention.id)) := (List.subperm_cons id).mpr h.claimed
    have before : (claims row ++ id :: gold'.map Mention.id).Subperm
        (claims row ++ gold.map Mention.id) := (List.Subperm.refl _).append taken
    exact later.trans (List.perm_middle.symm.subperm.trans before)
  unclaimed := by
    have out_eq : unclaiming (m.claiming id :: out) = unclaiming out := rfl
    rw [out_eq]
    refine h.unclaimed.trans ?_
    simp [unclaiming, new]

theorem trans (h : Matching gold mid row row') (h' : Matching mid left row' out) :
    Matching gold left row out where
  sites := h'.sites.trans h.sites
  claimed := h'.claimed.trans h.claimed
  unclaimed := h'.unclaimed.trans h.unclaimed

theorem append (h : Matching gold left row out) (h' : Matching gold' left' row' out') :
    Matching (gold ++ gold') (left ++ left') (row ++ row') (out ++ out') where
  sites := by rw [List.map_append, h.sites, h'.sites, List.map_append]
  claimed := by
    have exchange : ∀ a b c d : List MentionId,
        ((a ++ b) ++ (c ++ d)).Perm ((a ++ c) ++ (b ++ d)) := by
      intro a b c d
      rw [List.append_assoc, List.append_assoc]
      exact (List.perm_append_comm_assoc b c d).append_left a
    rw [claims_append, claims_append, List.map_append, List.map_append]
    refine (exchange ..).subperm.trans ((h.claimed.append h'.claimed).trans ?_)
    exact (exchange ..).subperm
  unclaimed := by
    simpa [unclaiming] using h.unclaimed.append h'.unclaimed

/-- Only the ids of gold mentions matter. -/
theorem of_map_id (h : Matching gold left row out)
    (eq : gold.map Mention.id = gold'.map Mention.id) : Matching gold' left row out where
  sites := h.sites
  claimed := eq ▸ h.claimed
  unclaimed := h.unclaimed

theorem site_mem (h : Matching gold left row out) (mem : m ∈ out) :
    ∃ m' ∈ row, m'.site = m.site := by
  have mem : m.site ∈ out.map Mention.site := List.mem_map_of_mem mem
  rw [h.sites] at mem
  exact List.mem_map.mp mem

/-- Where nothing was claimed before, the claimed ids are ids of the gold mentions. -/
theorem claims_subperm (h : Matching gold left row out) (fresh : ∀ m ∈ row, m.hasTwin = false) :
    (claims out).Subperm (gold.map Mention.id) := by
  have claimed := h.claimed
  rw [claims_eq_nil fresh, List.nil_append] at claimed
  exact (List.sublist_append_left _ _).subperm.trans claimed

/-- No gold mention is claimed twice. -/
theorem nodup_claims (h : Matching gold left row out) (fresh : ∀ m ∈ row, m.hasTwin = false)
    (once : (gold.map Mention.id).Nodup) : (claims out).Nodup := by
  obtain ⟨ids, perm, sub⟩ := h.claims_subperm fresh
  exact perm.nodup_iff.mp (once.sublist sub)

end Matching

/-! ## The passes -/

theorem mem_of_smallest? {ns : List Nat} {n : Nat} (h : smallest? ns = some n) : n ∈ ns := by
  induction ns generalizing n with
  | nil => cases h
  | cons k rest ih =>
    rw [smallest?] at h
    split at h
    next m found =>
      split at h
      next =>
        cases h
        exact List.mem_cons_of_mem k (ih found)
      next =>
        cases h
        exact List.mem_cons_self
    next =>
      cases h
      exact List.mem_cons_self

/-- Taking out the first gold mention of a kind takes out one id. -/
theorem map_id_perm_eraseP {pool : List Mention} {p : Mention → Bool} {g : Mention}
    (found : pool.find? p = some g) :
    (pool.map Mention.id).Perm (g.id :: (pool.eraseP p).map Mention.id) := by
  induction pool with
  | nil => cases found
  | cons first rest ih =>
    cases h : p first with
    | true =>
      rw [List.find?_cons_of_pos h] at found
      cases found
      rw [List.eraseP_cons_of_pos h, List.map_cons]
    | false =>
      rw [List.find?_cons_of_neg (by simp [h])] at found
      rw [List.eraseP_cons_of_neg (by simp [h]), List.map_cons, List.map_cons]
      exact ((ih found).cons first.id).trans (.swap ..)

theorem strictTwins_matching {row : List Mention} (fresh : ∀ m ∈ row, m.hasTwin = false)
    (pool : List Mention) : Matching pool [] row (strictTwins pool row) := by
  induction row generalizing pool with
  | nil => exact .nil (List.nil_subperm)
  | cons m rest ih =>
    obtain ⟨new, fresh⟩ := List.forall_mem_cons.mp fresh
    rw [strictTwins]
    split
    next id smallest =>
      obtain ⟨g, mem, rfl⟩ := List.mem_map.mp (mem_of_smallest? smallest)
      have listed : g ∈ pool := List.mem_of_mem_filter mem
      obtain ⟨g', found⟩ : ∃ g', pool.find? (fun other => other.id == g.id) = some g' := by
        rw [← Option.isSome_iff_exists, List.find?_isSome]
        exact ⟨g, listed, beq_self_eq_true g.id⟩
      have same : g'.id = g.id := by simpa using List.find?_some found
      have taken := map_id_perm_eraseP found
      rw [same] at taken
      exact (ih fresh _).claim new taken.symm.subperm
    next => exact (ih fresh pool).keep

theorem firstOfSpan_subset (gold : List Mention) : firstOfSpan gold ⊆ gold := by
  induction gold with
  | nil => exact List.Subset.refl []
  | cons g rest ih =>
    intro other mem
    rw [firstOfSpan] at mem
    rcases List.mem_cons.mp mem with rfl | mem
    · exact List.mem_cons_self
    · exact List.mem_cons_of_mem g (ih (List.mem_of_mem_filter mem))

/-- A gold mention claimed by its span is left over for nobody. -/
theorem spanTwins_matching {row : List Mention} (fresh : ∀ m ∈ row, m.hasTwin = false)
    {spans unclaimed : List Mention} (once : (unclaimed.map Mention.id).Nodup)
    (sub : spans ⊆ unclaimed) :
    Matching unclaimed (spanTwins spans unclaimed row).2 row
      (spanTwins spans unclaimed row).1 := by
  induction row generalizing spans unclaimed with
  | nil => exact .nil (List.Subperm.refl _)
  | cons m rest ih =>
    obtain ⟨new, fresh⟩ := List.forall_mem_cons.mp fresh
    rw [spanTwins]
    split
    next g found =>
      have listed : g ∈ unclaimed := sub (List.mem_of_find?_eq_some found)
      have spanned : g.span = m.span := by simpa using List.find?_some found
      have once' : ((unclaimed.filter fun other => other.id != g.id).map Mention.id).Nodup :=
        once.sublist (List.filter_sublist.map Mention.id)
      have sub' : (spans.filter fun other => other.span != m.span) ⊆
          unclaimed.filter fun other => other.id != g.id := by
        intro other mem
        obtain ⟨mem, apart⟩ := List.mem_filter.mp mem
        refine List.mem_filter.mpr ⟨sub mem, bne_iff_ne.mpr fun same => ?_⟩
        have eq : other = g := List.inj_on_of_nodup_map once (sub mem) listed same
        exact bne_iff_ne.mp apart (eq ▸ spanned)
      refine (ih fresh once' sub').claim new (List.subperm_of_subset ?_ ?_)
      · refine List.nodup_cons.mpr ⟨fun mem => ?_, once'⟩
        obtain ⟨other, mem, same⟩ := List.mem_map.mp mem
        exact bne_iff_ne.mp (List.mem_filter.mp mem).2 same
      · refine List.cons_subset.mpr ⟨List.mem_map_of_mem listed, ?_⟩
        exact List.map_subset Mention.id (List.filter_subset_self unclaimed)
    next => exact (ih fresh once sub).keep

theorem headTwins_matching (unclaimed row : List Mention) :
    Matching unclaimed [] row (headTwins unclaimed row) := by
  induction row generalizing unclaimed with
  | nil => exact .nil (List.nil_subperm)
  | cons m rest ih =>
    rw [headTwins]
    split
    next => exact (ih unclaimed).keep
    next new =>
      split
      next g found =>
        have new : m.hasTwin = false := by simpa using new
        exact (ih _).claim new (map_id_perm_eraseP found).symm.subperm
      next => exact (ih unclaimed).keep

theorem relaxedTwins_matching {gold row : List Mention} (once : (gold.map Mention.id).Nodup)
    (fresh : ∀ m ∈ row, m.hasTwin = false) : Matching gold [] row (relaxedTwins gold row) :=
  (spanTwins_matching fresh once (firstOfSpan_subset gold)).trans (headTwins_matching _ _)

theorem TwinPolicy.pair_matching (policy : TwinPolicy) {gold row : List Mention}
    (once : (gold.map Mention.id).Nodup) (fresh : ∀ m ∈ row, m.hasTwin = false) :
    Matching gold [] row (policy.pair gold row) := by
  cases policy with
  | strict => exact strictTwins_matching fresh gold
  | relaxed => exact relaxedTwins_matching once fresh

/-- The matchings of all sentences, side by side. -/
theorem TwinPolicy.pair_rows_matching (policy : TwinPolicy) {gold : Nat → List Mention}
    (once : ∀ i, ((gold i).map Mention.id).Nodup) {rows : List (List Mention)}
    (fresh : ∀ row ∈ rows, ∀ m ∈ row, m.hasTwin = false) (start : Nat) :
    Matching ((rows.zipIdx start).flatMap fun entry => gold entry.2) [] rows.flatten
      ((rows.zipIdx start).map fun (row, i) => policy.pair (gold i) row).flatten := by
  induction rows generalizing start with
  | nil => exact .nil (List.nil_subperm)
  | cons row rest ih =>
    obtain ⟨first, fresh⟩ := List.forall_mem_cons.mp fresh
    have here := policy.pair_matching (once start) first
    rw [List.zipIdx_cons, List.flatMap_cons, List.map_cons, List.flatten_cons, List.flatten_cons]
    exact here.append (ih fresh (start + 1))

end Discourse
