/-!
# Dependency graphs

A dependency joins two tokens of one sentence by a named relation; the edge of the root has no
governor.  A graph is any list of edges: nothing forbids cycles, several governors, or tokens that
the sentence does not have, and where a question has several answers the first edge decides.
-/

namespace Discourse

/-- One typed dependency. -/
structure Dependency where
  governor? : Option Nat
  dependent : Nat
  relation : String
deriving DecidableEq, Repr, Inhabited

/-- The dependencies of a sentence. -/
structure DependencyGraph where
  edges : List Dependency
deriving DecidableEq, Repr, Inhabited

namespace DependencyGraph

/-- The governor and dependent of every edge with a relation. -/
def pairsWith (g : DependencyGraph) (relation : String) : List (Nat × Nat) :=
  g.edges.filterMap fun e =>
    match e.governor? with
    | some governor => if e.relation = relation then some (governor, e.dependent) else none
    | none => none

/-- The first dependent of a governor by a relation. -/
def child? (g : DependencyGraph) (governor : Nat) (relation : String) : Option Nat :=
  (g.edges.find? fun e => e.governor? == some governor && e.relation == relation).map
    Dependency.dependent

/-- Every governor of a dependent, with the relation. -/
def parents (g : DependencyGraph) (dependent : Nat) : List (Nat × String) :=
  g.edges.filterMap fun e =>
    match e.governor? with
    | some governor => if e.dependent = dependent then some (governor, e.relation) else none
    | none => none

/-- The first governor of a dependent, with the relation. -/
def parent? (g : DependencyGraph) (dependent : Nat) : Option (Nat × String) :=
  (g.parents dependent).head?

/-- The relation of the first edge from a governor to a dependent. -/
def relation? (g : DependencyGraph) (governor dependent : Nat) : Option String :=
  (g.edges.find? fun e => e.governor? == some governor && e.dependent == dependent).map
    Dependency.relation

/-- The governors met on the way up from `current`, until there is none or one has been met. -/
def ascend (g : DependencyGraph) : Nat → List Nat → Nat → List Nat
  | 0, _, _ => []
  | steps + 1, met, current =>
    match g.parent? current with
    | none => []
    | some (governor, _) =>
      if met.contains governor then []
      else governor :: g.ascend steps (governor :: met) governor

/-- The way from a node to the root, the nearest governor first.  Each node on it is new, so that
it has no more steps than the graph has edges. -/
def pathToRoot (g : DependencyGraph) (node : Nat) : List Nat :=
  g.ascend g.edges.length [node] node

end DependencyGraph

end Discourse
