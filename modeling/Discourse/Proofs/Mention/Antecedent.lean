import Discourse.Proofs.Mention.Registration
/-!
# Derived antecedents

Gold data that name clusters only get antecedents by one pass over the gold mentions, which
remembers for each cluster the mention last seen in it.  What the pass leaves is said without it:
the antecedent of a gold mention is the last mention of its cluster among those before it.
-/

namespace Discourse

/-- The last of some mentions that is in a cluster. -/
def lastIn (cluster : Nat) (before : List Mention) : Option MentionId :=
  ((before.filter fun g => g.goldCluster? == some cluster).map Mention.id).getLast?

theorem exists_mem_of_lastIn {cluster : Nat} {before : List Mention} {id : MentionId}
    (last : lastIn cluster before = some id) :
    ∃ g ∈ before, g.id = id ∧ g.goldCluster? = some cluster := by
  obtain ⟨g, mem, same⟩ := List.mem_map.mp (List.mem_of_getLast? last)
  obtain ⟨mem, inCluster⟩ := List.mem_filter.mp mem
  exact ⟨g, mem, same, by simpa using inCluster⟩

theorem exists_lastIn {cluster : Nat} {before : List Mention} {g : Mention} (mem : g ∈ before)
    (inCluster : g.goldCluster? = some cluster) : ∃ id, lastIn cluster before = some id := by
  rw [← Option.isSome_iff_exists, lastIn, List.getLast?_isSome]
  intro nothing
  have mem : g.id ∈ (before.filter fun g => g.goldCluster? == some cluster).map Mention.id :=
    List.mem_map_of_mem (List.mem_filter.mpr ⟨mem, by simp [inCluster]⟩)
  rw [nothing] at mem
  exact List.not_mem_nil mem

theorem lastIn_append (cluster : Nat) (before : List Mention) (g : Mention) :
    lastIn cluster (before ++ [g]) =
      if g.goldCluster? = some cluster then some g.id else lastIn cluster before := by
  by_cases inCluster : g.goldCluster? = some cluster
  · simp [lastIn, inCluster]
  · simp [lastIn, inCluster]

/-- What the pass has remembered after some gold mentions. -/
def Remembers (state : Table MentionId Mention × Table Nat MentionId) (done : List Mention) :
    Prop :=
  ∀ cluster, state.2.find? cluster = lastIn cluster done

theorem Remembers.step {state : Table MentionId Mention × Table Nat MentionId}
    {done : List Mention} (h : Remembers state done) (g : Mention) :
    Remembers (deriveStep state g) (done ++ [g]) := by
  intro cluster
  rw [lastIn_append, deriveStep]
  split
  next none => simp [none, h cluster]
  next here found =>
    rw [found, Table.find?_insert, h cluster]
    simp [eq_comm]

theorem find?_deriveStep (state : Table MentionId Mention × Table Nat MentionId) (g : Mention)
    (id : MentionId) :
    (deriveStep state g).1.find? id =
      if id = g.id then (state.1.find? id).map fun m =>
        { m with antecedent? := g.goldCluster?.elim m.antecedent? state.2.find? }
      else state.1.find? id := by
  rw [deriveStep]
  split
  next none => simp [none]
  next cluster found => simp [found, Table.find?_modify]

/-- Later mentions change nothing about the earlier ones. -/
theorem find?_foldl_deriveStep_of_not_mem {id : MentionId} {rest : List Mention}
    (other : id ∉ rest.map Mention.id) (state : Table MentionId Mention × Table Nat MentionId) :
    (rest.foldl deriveStep state).1.find? id = state.1.find? id := by
  refine List.foldlRecOn (motive := fun after : _ × Table Nat MentionId =>
    after.1.find? id = state.1.find? id) rest deriveStep rfl ?_
  intro after same g mem
  have ne : id ≠ g.id := fun eq => other (eq ▸ List.mem_map_of_mem mem)
  rw [find?_deriveStep, if_neg ne, same]

theorem find?_foldl_deriveStep {before after : List Mention} {g m : Mention}
    (once : ((before ++ g :: after).map Mention.id).Nodup) {done : List Mention}
    {state : Table MentionId Mention × Table Nat MentionId} (h : Remembers state done)
    (found : state.1.find? g.id = some m) :
    ((before ++ g :: after).foldl deriveStep state).1.find? g.id =
      some { m with
        antecedent? := g.goldCluster?.elim m.antecedent? fun c => lastIn c (done ++ before) } := by
  induction before generalizing done state with
  | nil =>
    obtain ⟨other, -⟩ := List.nodup_cons.mp once
    rw [List.nil_append, List.foldl_cons, find?_foldl_deriveStep_of_not_mem other,
      find?_deriveStep, if_pos rfl, found, Option.map_some, List.append_nil, funext h]
  | cons first before ih =>
    obtain ⟨other, once⟩ := List.nodup_cons.mp once
    have ne : g.id ≠ first.id := fun eq => other (eq ▸ by simp)
    have kept : (deriveStep state first).1.find? g.id = some m := by
      rw [find?_deriveStep, if_neg ne, found]
    have later := ih once (h.step first) kept
    rw [List.append_assoc] at later
    exact later

/-- Where no gold mention names an antecedent, each gets the last mention of its cluster before
it. -/
theorem find?_withAntecedents {before after : List Mention} {g : Mention}
    (ascending : ((before ++ g :: after).map Mention.id).Pairwise (· < ·))
    (bare : ∀ g' ∈ before ++ g :: after, g'.antecedent? = none) :
    (withAntecedents (tableOf (before ++ g :: after))).find? g.id =
      some { g with antecedent? := g.goldCluster?.bind fun c => lastIn c before } := by
  have once : ((before ++ g :: after).map Mention.id).Nodup := ascending.imp Nat.ne_of_lt
  have nothing : ((before ++ g :: after).any fun g' => g'.antecedent?.isSome) = false := by
    rw [List.any_eq_false]
    intro g' mem
    simp [bare g' mem]
  have start : Remembers (tableOf (before ++ g :: after), {}) [] := fun cluster => rfl
  have found : (tableOf (before ++ g :: after)).find? g.id = some g := by
    rw [find?_tableOf_iff once]
    exact ⟨by simp, rfl⟩
  rw [withAntecedents, values_tableOf ascending, nothing, if_neg Bool.false_ne_true,
    find?_foldl_deriveStep once start found, List.nil_append, bare g (by simp)]
  cases g.goldCluster? <;> rfl

end Discourse
