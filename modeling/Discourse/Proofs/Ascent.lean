import Mathlib.Data.List.Chain
import Mathlib.Data.List.Nodup
import Discourse.Dependency
/-!
# The way up a dependency graph

From a node the way leads to its governor, to the governor of that, and so on, until there is none
or until it would come to a node that it has been at (`IsWay`).  In a graph that is no tree it need
not come to a root, but it ends: each step leads to a governor that has not been met, and no graph
has more governors than edges.

The walk is told twice, as a loop that goes on without a bound (`Climb`) and by what its result
looks like.  There is one way from every node; the loop ends with it, and so does the walk that is
given as many steps as there are edges (`pathToRoot_isWay`).
-/

namespace Discourse.DependencyGraph

variable {g : DependencyGraph} {node current governor : Nat} {path final : List Nat}

/-! ## Governors -/

/-- The first edge that gives a node a governor gives it this one. -/
def FirstGovernor (g : DependencyGraph) (node governor : Nat) : Prop :=
  ∃ front e back, g.edges = front ++ e :: back ∧ e.dependent = node ∧
    e.governor? = some governor ∧ ∀ f ∈ front, f.dependent = node → f.governor? = none

/-- The governors that the edges name. -/
def governors (g : DependencyGraph) : List Nat := g.edges.filterMap Dependency.governor?

theorem FirstGovernor.mem_governors (first : g.FirstGovernor node governor) :
    governor ∈ g.governors := by
  obtain ⟨front, e, back, split, -, governs, -⟩ := first
  refine List.mem_filterMap.mpr ⟨e, ?_, governs⟩
  rw [split]
  exact List.mem_append_right front List.mem_cons_self

theorem firstGovernor_iff :
    g.FirstGovernor node governor ↔ ∃ relation, g.parent? node = some (governor, relation) := by
  simp only [parent?, parents, List.head?_filterMap, List.findSome?_eq_some_iff]
  constructor
  · rintro ⟨front, e, back, split, depends, governs, before⟩
    refine ⟨e.relation, front, e, back, split, ?_, fun f mem => ?_⟩
    · rw [governs]
      exact if_pos depends
    · cases named : f.governor? with
      | none => rfl
      | some other =>
        refine if_neg fun depends => ?_
        rw [before f mem depends] at named
        cases named
  · rintro ⟨relation, front, e, back, split, value, before⟩
    cases named : e.governor? with
    | none =>
      rw [named] at value
      cases value
    | some other =>
      rw [named] at value
      obtain ⟨depends, same⟩ := Option.ite_none_right_eq_some.mp value
      cases same
      refine ⟨front, e, back, split, depends, named, fun f mem depends => ?_⟩
      have passed := before f mem
      cases there : f.governor? with
      | none => rfl
      | some other' =>
        rw [there] at passed
        dsimp only at passed
        rw [if_pos depends] at passed
        cases passed

/-- A node has one first governor at most. -/
theorem FirstGovernor.unique {other : Nat} (first : g.FirstGovernor node governor)
    (first' : g.FirstGovernor node other) : governor = other := by
  obtain ⟨relation, found⟩ := firstGovernor_iff.mp first
  obtain ⟨relation', found'⟩ := firstGovernor_iff.mp first'
  rw [found] at found'
  cases found'
  rfl

/-! ## The loop -/

/-- The walk up from `node`, when it has come to `current` by `path`, ends with the path `final`. -/
inductive Climb (g : DependencyGraph) (node : Nat) : List Nat → Nat → List Nat → Prop
  | root {path : List Nat} {current : Nat} :
      (∀ governor, ¬g.FirstGovernor current governor) → Climb g node path current path
  | met {path : List Nat} {current governor : Nat} :
      g.FirstGovernor current governor → governor ∈ node :: path → Climb g node path current path
  | step {path final : List Nat} {current governor : Nat} :
      g.FirstGovernor current governor → governor ∉ node :: path →
      Climb g node (path ++ [governor]) governor final → Climb g node path current final

/-- The loop ends where no governor is left that has not been met. -/
theorem climb_of_stops
    (stops : ∀ governor, g.FirstGovernor current governor → governor ∈ node :: path) :
    g.Climb node path current path := by
  by_cases governed : ∃ governor, g.FirstGovernor current governor
  · obtain ⟨governor, first⟩ := governed
    exact .met first (stops governor first)
  · exact .root fun governor first => governed ⟨governor, first⟩

/-- The loop ends in one way. -/
theorem Climb.unique {final' : List Nat} (climb : g.Climb node path current final)
    (climb' : g.Climb node path current final') : final = final' := by
  induction climb with
  | root none =>
    cases climb' with
    | root => rfl
    | met => rfl
    | step first => exact absurd first (none _)
  | met first met =>
    cases climb' with
    | root => rfl
    | met => rfl
    | step first' new =>
      rw [← first.unique first'] at new
      exact absurd met new
  | step first new _ ih =>
    cases climb' with
    | root none => exact absurd first (none _)
    | met first' met =>
      rw [← first.unique first'] at met
      exact absurd met new
    | step first' _ climb' =>
      rw [← first.unique first'] at climb'
      exact ih climb'

/-! ## The way -/

/-- The way up from a node. -/
structure IsWay (g : DependencyGraph) (node : Nat) (path : List Nat) : Prop where
  /-- No node is on it twice, and the first node is not on it. -/
  distinct : (node :: path).Nodup
  /-- Each node is the first governor of the one before it. -/
  linked : (node :: path).IsChain g.FirstGovernor
  /-- It ends where there is no governor or one that has been met. -/
  stops : ∀ governor,
    g.FirstGovernor ((node :: path).getLast (List.cons_ne_nil node path)) governor →
      governor ∈ node :: path

/-- What the loop has found between two rounds. -/
structure Reached (g : DependencyGraph) (node : Nat) (path : List Nat) (current : Nat) : Prop where
  distinct : (node :: path).Nodup
  linked : (node :: path).IsChain g.FirstGovernor
  last : (node :: path).getLast? = some current

theorem reached_start (g : DependencyGraph) (node : Nat) : g.Reached node [] node where
  distinct := List.nodup_singleton node
  linked := List.isChain_singleton node
  last := rfl

/-- A round that goes on keeps what has been found. -/
theorem Reached.step (reached : g.Reached node path current)
    (first : g.FirstGovernor current governor) (new : governor ∉ node :: path) :
    g.Reached node (path ++ [governor]) governor where
  distinct := by
    rw [← List.cons_append]
    exact List.nodup_append_comm.mp (List.nodup_cons.mpr ⟨new, reached.distinct⟩)
  linked := by
    rw [← List.cons_append]
    refine reached.linked.append (List.isChain_singleton governor) ?_
    intro last ends next starts
    rw [reached.last] at ends
    cases ends
    cases starts
    exact first
  last := by rw [← List.cons_append, List.getLast?_concat]

theorem Reached.getLast_eq (reached : g.Reached node path current) :
    (node :: path).getLast (List.cons_ne_nil node path) = current := by
  have last := reached.last
  rw [List.getLast?_eq_getLast_of_ne_nil (List.cons_ne_nil node path)] at last
  exact Option.some.inj last

/-- Where the loop ends it has found a way. -/
theorem Climb.isWay (climb : g.Climb node path current final)
    (reached : g.Reached node path current) : g.IsWay node final := by
  induction climb with
  | root none =>
    refine ⟨reached.distinct, reached.linked, fun governor first => ?_⟩
    rw [reached.getLast_eq] at first
    exact absurd first (none governor)
  | met first met =>
    refine ⟨reached.distinct, reached.linked, fun governor first' => ?_⟩
    rw [reached.getLast_eq] at first'
    rw [← first.unique first']
    exact met
  | step first new _ ih => exact ih (reached.step first new)

/-- The loop follows a way to its end, from wherever on it. -/
theorem IsWay.climb {rest : List Nat} (way : g.IsWay node (path ++ rest))
    (last : (node :: path).getLast? = some current) : g.Climb node path current (path ++ rest) := by
  induction rest generalizing path current with
  | nil =>
    rw [List.append_nil] at way ⊢
    have stops := way.stops
    rw [List.getLast?_eq_getLast_of_ne_nil (List.cons_ne_nil node path)] at last
    rw [Option.some.inj last] at stops
    exact climb_of_stops stops
  | cons next rest ih =>
    have linked := way.linked
    have distinct := way.distinct
    rw [← List.cons_append] at linked distinct
    have first : g.FirstGovernor current next :=
      (List.isChain_append.mp linked).2.2 current last next rfl
    have new : next ∉ node :: path := fun met =>
      (List.nodup_append.mp distinct).2.2 next met next List.mem_cons_self rfl
    rw [List.append_cons] at way ⊢
    refine .step first new (ih way ?_)
    rw [← List.cons_append, List.getLast?_concat]

/-! ## The walk with a bound -/

/-- The governors that have not been met. -/
def unmet (g : DependencyGraph) (met : List Nat) : List Nat :=
  g.governors.filter fun governor => decide (governor ∉ met)

/-- Each round meets one of them. -/
theorem length_unmet_lt {met : List Nat} (listed : governor ∈ g.governors) (new : governor ∉ met) :
    (g.unmet (met ++ [governor])).length < (g.unmet met).length := by
  have fewer : g.unmet (met ++ [governor]) =
      (g.unmet met).filter fun k => decide (k ≠ governor) := by
    rw [unmet, unmet, List.filter_filter]
    refine List.filter_congr fun k _ => ?_
    rw [← Bool.decide_and, decide_eq_decide, List.mem_append, List.mem_singleton, not_or, and_comm]
  rw [fewer, List.length_filter_lt_length_iff_exists]
  refine ⟨governor, List.mem_filter.mpr ⟨listed, decide_eq_true new⟩, fun other => ?_⟩
  exact of_decide_eq_true other rfl

/-- With a step for every governor not met the walk is that of the loop. -/
theorem climb_ascend {steps : Nat} (enough : (g.unmet (node :: path)).length ≤ steps) :
    g.Climb node path current (path ++ g.ascend steps (path.reverse ++ [node]) current) := by
  induction steps generalizing path current with
  | zero =>
    rw [ascend, List.append_nil]
    refine climb_of_stops fun governor first => Decidable.byContradiction fun new => ?_
    have shorter := length_unmet_lt first.mem_governors new
    omega
  | succ steps ih =>
    have same_met : ∀ k, (path.reverse ++ [node]).contains k = true ↔ k ∈ node :: path := by
      intro k
      rw [List.contains_iff_mem, List.mem_append, List.mem_reverse, List.mem_singleton,
        List.mem_cons, or_comm]
    rw [ascend]
    split
    next none =>
      rw [List.append_nil]
      refine .root fun governor first => ?_
      obtain ⟨relation, found⟩ := firstGovernor_iff.mp first
      rw [none] at found
      cases found
    next governor relation found =>
      have first : g.FirstGovernor current governor := firstGovernor_iff.mpr ⟨relation, found⟩
      split
      next met =>
        rw [List.append_nil]
        exact .met first ((same_met governor).mp met)
      next unknown =>
        have new : governor ∉ node :: path := mt (same_met governor).mpr unknown
        have fewer := length_unmet_lt first.mem_governors new
        have enough : (g.unmet (node :: (path ++ [governor]))).length ≤ steps :=
          Nat.le_of_lt_succ (Nat.lt_of_lt_of_le fewer enough)
        refine .step first new ?_
        have met : governor :: (path.reverse ++ [node]) =
            (path ++ [governor]).reverse ++ [node] := by
          rw [List.reverse_append]
          rfl
        rw [met, List.append_cons path governor (g.ascend steps _ governor)]
        exact ih enough

theorem climb_pathToRoot (g : DependencyGraph) (node : Nat) :
    g.Climb node [] node (g.pathToRoot node) := by
  refine climb_ascend (Nat.le_trans (List.length_filter_le _ _) ?_)
  exact List.length_filterMap_le _ _

theorem length_ascend_le (g : DependencyGraph) (steps : Nat) (met : List Nat) (current : Nat) :
    (g.ascend steps met current).length ≤ steps := by
  induction steps generalizing met current with
  | zero => exact Nat.le_refl 0
  | succ steps ih =>
    rw [ascend]
    split
    next => exact Nat.zero_le _
    next =>
      split
      next => exact Nat.zero_le _
      next => exact Nat.succ_le_succ (ih _ _)

/-- From every node of every graph the loop ends, with the path of the walk and after no more steps
than there are edges; and that path is the way up from the node, of which there is one. -/
theorem pathToRoot_isWay (g : DependencyGraph) (node : Nat) :
    (∀ path, g.Climb node [] node path ↔ path = g.pathToRoot node) ∧
      (∀ path, g.IsWay node path ↔ path = g.pathToRoot node) ∧
      (g.pathToRoot node).length ≤ g.edges.length := by
  have climb := g.climb_pathToRoot node
  refine ⟨fun path => ⟨fun climb' => climb'.unique climb, ?_⟩, fun path => ⟨fun way => ?_, ?_⟩,
    g.length_ascend_le _ _ _⟩
  · rintro rfl
    exact climb
  · have climb' : g.Climb node [] node ([] ++ path) := way.climb rfl
    exact climb'.unique climb
  · rintro rfl
    exact climb.isWay (reached_start g node)

/-- From a node in front of a cycle the way goes once around it, from a node on it up to that node,
and a node that governs itself has none. -/
example : let g : DependencyGraph :=
      ⟨[⟨some 2, 1, "nsubj"⟩, ⟨some 3, 2, "conj"⟩, ⟨some 2, 3, "conj"⟩, ⟨some 4, 4, "dep"⟩]⟩
    g.pathToRoot 1 = [2, 3] ∧ g.pathToRoot 2 = [3] ∧ g.pathToRoot 4 = [] := by decide

end Discourse.DependencyGraph
