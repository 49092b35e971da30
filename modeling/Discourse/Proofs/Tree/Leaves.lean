import Discourse.Tree.Node
/-!
# Leaves of a tree

The nodes of a tree are numbered along with its words: as many nodes are leaves as the tree has
words (`isSome_leafId?_iff`), and no node covers more words than there are (`span_le_of_mem_nodes`).
-/

namespace Discourse

namespace Row

theorem length_leaves_nodes (row : Row) (parent? : Option Nat) (id leaf : Nat) :
    ((row.nodes parent? id leaf).filter Node.isLeaf).length = row.leafCount := by
  induction row generalizing parent? id leaf with
  | done => rfl
  | word text next ih =>
    rw [nodes, List.filter_cons_of_pos rfl, List.length_cons, ih, leafCount]
  | phrase label below next below_ih next_ih =>
    rw [nodes, List.cons_append, List.filter_cons_of_neg (by exact Bool.false_ne_true),
      List.filter_append, List.length_append, below_ih, next_ih, leafCount]

theorem leafSpan_le (first count : Nat) : (leafSpan first count).2 ≤ first + count := by
  rw [leafSpan]
  split
  · exact Nat.zero_le _
  · exact Nat.le_refl _

theorem span_le_of_mem_nodes {row : Row} {parent? : Option Nat} {id leaf : Nat} {node : Node}
    (mem : node ∈ row.nodes parent? id leaf) : node.span.2 ≤ leaf + row.leafCount := by
  induction row generalizing parent? id leaf with
  | done => cases mem
  | word text next ih =>
    rw [leafCount]
    rcases List.mem_cons.mp mem with rfl | later
    · show leaf + 1 ≤ leaf + (next.leafCount + 1)
      omega
    · have bound := ih later
      omega
  | phrase label below next below_ih next_ih =>
    rw [leafCount]
    rw [nodes, List.cons_append] at mem
    rcases List.mem_cons.mp mem with rfl | mem
    · have bound := leafSpan_le leaf below.leafCount
      show (leafSpan leaf below.leafCount).2 ≤ leaf + (below.leafCount + next.leafCount)
      omega
    · rcases List.mem_append.mp mem with inner | later
      · have bound := below_ih inner
        omega
      · have bound := next_ih later
        omega

end Row

namespace ParseTree

theorem leafCount_asRow (tree : ParseTree) : tree.asRow.leafCount = tree.leafCount :=
  Nat.add_zero _

/-- The words are numbered by place. -/
theorem isSome_leafId?_iff {tree : ParseTree} {index : Nat} :
    (tree.leafId? index).isSome ↔ index < tree.leafCount := by
  have length : tree.leafIds.length = tree.leafCount := by
    rw [leafIds, List.length_map, nodes, Row.length_leaves_nodes, leafCount_asRow]
  rw [leafId?, Option.isSome_iff_exists, ← length]
  constructor
  · rintro ⟨leaf, here⟩
    exact (List.getElem?_eq_some_iff.mp here).1
  · intro inside
    exact ⟨_, List.getElem?_eq_getElem inside⟩

theorem span_le_of_mem_nodes {tree : ParseTree} {node : Node} (mem : node ∈ tree.nodes) :
    node.span.2 ≤ tree.leafCount := by
  have bound := Row.span_le_of_mem_nodes mem
  rw [leafCount_asRow, Nat.zero_add] at bound
  exact bound

end ParseTree

end Discourse
