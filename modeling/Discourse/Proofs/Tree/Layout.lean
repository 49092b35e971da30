import Discourse.Proofs.Tree.Leaves
import Mathlib.Data.List.Nodup
/-!
# The layout of a tree

Nodes are numbered in the order of the text, each before what is below it.  So the numbers below a
node follow its own without a gap (`ParseTree.below_iff`), and so do the places of the words there:
parent links, lists of children, the list of leaves and the ranges of words are four views of one
tree (`ParseTree.nodes_wellLinked`).

What a row lays out is found by induction on the row: the numbers run on (`Row.map_id_nodes`), the
places of the words run on (`Row.map_leaf_nodes`), and the parent of a node is the one given for the
whole row or a node of the row whose subtree reaches beyond it (`Row.parent_cases`).  A phrase has
the nodes of a row of its own behind it (`Row.made_of_mem`), of which all this holds again.
-/

namespace Discourse

namespace Row

variable {row : Row} {parent? : Option Nat} {id leaf : Nat}

/-! ## Numbers -/

theorem map_id_nodes (row : Row) (parent? : Option Nat) (id leaf : Nat) :
    (row.nodes parent? id leaf).map Node.id = List.range' id row.size := by
  induction row generalizing parent? id leaf with
  | done => rfl
  | word text next ih =>
    rw [nodes, List.map_cons, ih, size, List.range'_succ]
  | phrase label below next below_ih next_ih =>
    rw [nodes, List.cons_append, List.map_cons, List.map_append, below_ih, next_ih, size,
      List.range'_succ, List.range'_append_1]

theorem nodup_nodes (row : Row) (parent? : Option Nat) (id leaf : Nat) :
    ((row.nodes parent? id leaf).map Node.id).Nodup := by
  rw [map_id_nodes]
  exact List.nodup_range'

theorem id_bounds {n : Node} (mem : n ∈ row.nodes parent? id leaf) :
    id ≤ n.id ∧ n.id < id + row.size := by
  have listed : n.id ∈ (row.nodes parent? id leaf).map Node.id := List.mem_map_of_mem mem
  rw [map_id_nodes, List.mem_range'_1] at listed
  exact listed

theorem exists_of_bounds {x : Nat} (low : id ≤ x) (high : x < id + row.size) :
    ∃ n ∈ row.nodes parent? id leaf, n.id = x := by
  have listed : x ∈ (row.nodes parent? id leaf).map Node.id := by
    rw [map_id_nodes, List.mem_range'_1]
    exact ⟨low, high⟩
  exact List.mem_map.mp listed

theorem id_of_getElem? {n : Node} {i : Nat} (at_i : (row.nodes parent? id leaf)[i]? = some n) :
    n.id = id + i := by
  have numbers := congrArg (fun ids : List Nat => ids[i]?) (row.map_id_nodes parent? id leaf)
  have length := congrArg List.length (row.map_id_nodes parent? id leaf)
  have lt : i < row.size := by
    have lt := (List.getElem?_eq_some_iff.mp at_i).1
    rw [List.length_map, List.length_range'] at length
    omega
  simp only [List.getElem?_map, at_i, Option.map_some, List.getElem?_range' lt] at numbers
  simpa using numbers

/-- A number belongs to one node. -/
theorem eq_of_id_eq {n m : Node} (mem : n ∈ row.nodes parent? id leaf)
    (mem' : m ∈ row.nodes parent? id leaf) (same : n.id = m.id) : n = m :=
  List.inj_on_of_nodup_map (row.nodup_nodes parent? id leaf) mem mem' same

/-- The subtree of a node ends within the row. -/
theorem subtree_le {n : Node} (mem : n ∈ row.nodes parent? id leaf) :
    0 < n.size ∧ n.id + n.size ≤ id + row.size := by
  induction row generalizing parent? id leaf with
  | done => cases mem
  | word text next ih =>
    rw [size]
    rcases List.mem_cons.mp mem with rfl | later
    · exact ⟨Nat.one_pos, by show id + 1 ≤ id + (next.size + 1); omega⟩
    · have bounds := ih later
      omega
  | phrase label below next below_ih next_ih =>
    rw [size]
    rw [nodes, List.cons_append] at mem
    rcases List.mem_cons.mp mem with rfl | mem
    · refine ⟨Nat.succ_pos _, ?_⟩
      show id + (below.size + 1) ≤ id + (below.size + next.size + 1)
      omega
    · rcases List.mem_append.mp mem with inner | later
      · have bounds := below_ih inner
        omega
      · have bounds := next_ih later
        omega

/-! ## Words -/

/-- The places of the words run on in the order of the nodes. -/
theorem map_leaf_nodes (row : Row) (parent? : Option Nat) (id leaf : Nat) :
    ((row.nodes parent? id leaf).filter Node.isLeaf).map Node.leaf? =
      (List.range' leaf row.leafCount).map some := by
  induction row generalizing parent? id leaf with
  | done => rfl
  | word text next ih =>
    rw [nodes, List.filter_cons_of_pos rfl, List.map_cons, ih, leafCount, List.range'_succ,
      List.map_cons]
  | phrase label below next below_ih next_ih =>
    rw [nodes, List.cons_append, List.filter_cons_of_neg Bool.false_ne_true, List.filter_append,
      List.map_append, below_ih, next_ih, leafCount, ← List.map_append, List.range'_append_1]

theorem leaf_bounds {n : Node} (mem : n ∈ row.nodes parent? id leaf) {place : Nat}
    (here : n.leaf? = some place) : leaf ≤ place ∧ place < leaf + row.leafCount := by
  have isLeaf : n.isLeaf = true := by rw [Node.isLeaf, here]; rfl
  have listed : n.leaf? ∈ ((row.nodes parent? id leaf).filter Node.isLeaf).map Node.leaf? :=
    List.mem_map_of_mem (List.mem_filter.mpr ⟨mem, isLeaf⟩)
  rw [map_leaf_nodes, here] at listed
  obtain ⟨_, listed, same⟩ := List.mem_map.mp listed
  cases same
  exact List.mem_range'_1.mp listed

theorem exists_of_leaf_bounds {place : Nat} (low : leaf ≤ place)
    (high : place < leaf + row.leafCount) :
    ∃ n ∈ row.nodes parent? id leaf, n.leaf? = some place := by
  have listed : some place ∈
      ((row.nodes parent? id leaf).filter Node.isLeaf).map Node.leaf? := by
    rw [map_leaf_nodes]
    exact List.mem_map_of_mem (List.mem_range'_1.mpr ⟨low, high⟩)
  obtain ⟨n, mem, here⟩ := List.mem_map.mp listed
  exact ⟨n, List.mem_of_mem_filter mem, here⟩

/-- A place belongs to one word. -/
theorem eq_of_leaf_eq {n m : Node} (mem : n ∈ row.nodes parent? id leaf)
    (mem' : m ∈ row.nodes parent? id leaf) {place : Nat} (here : n.leaf? = some place)
    (here' : m.leaf? = some place) : n = m := by
  have once : (((row.nodes parent? id leaf).filter Node.isLeaf).map Node.leaf?).Nodup := by
    rw [map_leaf_nodes]
    exact List.Nodup.map (fun _ _ => Option.some.inj) List.nodup_range'
  have isLeaf : ∀ {n : Node}, n.leaf? = some place → n.isLeaf = true := by
    intro n here
    rw [Node.isLeaf, here]
    rfl
  exact List.inj_on_of_nodup_map once (List.mem_filter.mpr ⟨mem, isLeaf here⟩)
    (List.mem_filter.mpr ⟨mem', isLeaf here'⟩) (here.trans here'.symm)

/-! ## Nodes below a node -/

/-- What a node is made of: it is a word, or it has the nodes of a row behind it. -/
inductive Made (nodes : List Node) (n : Node) : Prop
  | word (place : Nat) : n.leaf? = some place → n.children = [] → n.size = 1 →
      n.span = (place, place + 1) → Made nodes n
  | phrase (below : Row) (leaf : Nat) : n.leaf? = none → n.size = below.size + 1 →
      n.span = leafSpan leaf below.leafCount →
      below.nodes (some n.id) (n.id + 1) leaf ⊆ nodes →
      n.children =
        ((below.nodes (some n.id) (n.id + 1) leaf).filter fun m => m.parent? == some n.id).map
          Node.id →
      Made nodes n

theorem Made.of_subset {nodes nodes' : List Node} {n : Node} (h : Made nodes n)
    (sub : nodes ⊆ nodes') : Made nodes' n := by
  cases h with
  | word place here none one span => exact .word place here none one span
  | phrase below leaf here size span within kids =>
    exact .phrase below leaf here size span (List.Subset.trans within sub) kids

theorem made_of_mem {n : Node} (mem : n ∈ row.nodes parent? id leaf) :
    Made (row.nodes parent? id leaf) n := by
  induction row generalizing parent? id leaf with
  | done => cases mem
  | word text next ih =>
    rcases List.mem_cons.mp mem with rfl | later
    · exact .word leaf rfl rfl rfl rfl
    · exact (ih later).of_subset (List.subset_cons_self _ _)
  | phrase label below next below_ih next_ih =>
    rw [nodes, List.cons_append] at mem ⊢
    have inside : below.nodes (some id) (id + 1) leaf ⊆ below.nodes (some id) (id + 1) leaf ++
        next.nodes parent? (id + 1 + below.size) (leaf + below.leafCount) :=
      List.subset_append_left _ _
    rcases List.mem_cons.mp mem with rfl | mem
    · refine .phrase below leaf rfl rfl rfl ?_ ?_
      · exact List.Subset.trans inside (List.subset_cons_self _ _)
      · simp [constituentsOf, Node.constituent, Function.comp_def]
    · rcases List.mem_append.mp mem with inner | later
      · exact (below_ih inner).of_subset (List.Subset.trans inside (List.subset_cons_self _ _))
      · exact (next_ih later).of_subset
          (List.Subset.trans (List.subset_append_right _ _) (List.subset_cons_self _ _))

/-- The parent of a node is the one of the row, or a node of the row around it. -/
theorem parent_cases {n : Node} (mem : n ∈ row.nodes parent? id leaf) :
    n.parent? = parent? ∨ ∃ q ∈ row.nodes parent? id leaf,
      n.parent? = some q.id ∧ q.id < n.id ∧ n.id < q.id + q.size := by
  induction row generalizing parent? id leaf with
  | done => cases mem
  | word text next ih =>
    rcases List.mem_cons.mp mem with rfl | later
    · exact .inl rfl
    · rcases ih later with same | ⟨q, listed, around⟩
      · exact .inl same
      · exact .inr ⟨q, List.mem_cons_of_mem _ listed, around⟩
  | phrase label below next below_ih next_ih =>
    rw [nodes, List.cons_append] at mem ⊢
    rcases List.mem_cons.mp mem with rfl | mem
    · exact .inl rfl
    · rcases List.mem_append.mp mem with inner | later
      · rcases below_ih inner with same | ⟨q, listed, around⟩
        · have bounds := id_bounds inner
          refine .inr ⟨_, List.mem_cons_self, same, ?_, ?_⟩
          · show id < n.id
            omega
          · show n.id < id + (below.size + 1)
            omega
        · exact .inr ⟨q, List.mem_cons_of_mem _ (List.mem_append_left _ listed), around⟩
      · rcases next_ih later with same | ⟨q, listed, around⟩
        · exact .inl same
        · exact .inr ⟨q, List.mem_cons_of_mem _ (List.mem_append_right _ listed), around⟩

/-- A node among the numbers of a subtree has its own subtree there. -/
theorem subtree_nested {n m : Node} (mem : n ∈ row.nodes parent? id leaf)
    (mem' : m ∈ row.nodes parent? id leaf) (low : n.id ≤ m.id) (high : m.id < n.id + n.size) :
    m.id + m.size ≤ n.id + n.size := by
  by_cases same : n.id = m.id
  · have eq : n = m := eq_of_id_eq mem mem' same
    subst eq
    exact Nat.le_refl _
  · cases made_of_mem mem with
    | word place _ _ one _ => omega
    | phrase below leaf' _ size _ within _ =>
      obtain ⟨m', inner, same'⟩ : ∃ m' ∈ below.nodes (some n.id) (n.id + 1) leaf', m'.id = m.id :=
        exists_of_bounds (by omega) (by omega)
      rw [eq_of_id_eq (within inner) mem' same'] at inner
      have bounds := (subtree_le inner).2
      omega

/-- The children of a node are the nodes that have it for a parent. -/
theorem mem_children_iff {n m : Node} (outer : ∀ p, parent? = some p → p < id)
    (mem : n ∈ row.nodes parent? id leaf) (mem' : m ∈ row.nodes parent? id leaf) :
    m.id ∈ n.children ↔ m.parent? = some n.id := by
  have around : m.parent? = some n.id → n.id < m.id ∧ m.id < n.id + n.size := by
    intro child
    rcases parent_cases mem' with same | ⟨q, listed, same, bounds⟩
    · have before := outer n.id (same.symm.trans child)
      exact absurd before (Nat.not_lt.mpr (id_bounds mem).1)
    · have eq : q = n := eq_of_id_eq listed mem (Option.some.inj (same.symm.trans child))
      exact eq ▸ bounds
  cases made_of_mem mem with
  | word place _ childless one _ =>
    rw [childless]
    refine iff_of_false List.not_mem_nil fun child => ?_
    have bounds := around child
    omega
  | phrase below leaf' _ size _ within kids =>
    rw [kids, List.mem_map]
    constructor
    · rintro ⟨m', listed, same⟩
      obtain ⟨inner, child⟩ := List.mem_filter.mp listed
      rw [← eq_of_id_eq (within inner) mem' same]
      exact beq_iff_eq.mp child
    · intro child
      have bounds := around child
      obtain ⟨m', inner, same⟩ : ∃ m' ∈ below.nodes (some n.id) (n.id + 1) leaf', m'.id = m.id :=
        exists_of_bounds (by omega) (by omega)
      have eq : m' = m := eq_of_id_eq (within inner) mem' same
      exact ⟨m', List.mem_filter.mpr ⟨inner, beq_iff_eq.mpr (eq ▸ child)⟩, same⟩

/-- Every child is a node. -/
theorem exists_of_mem_children {n : Node} (mem : n ∈ row.nodes parent? id leaf) {x : Nat}
    (child : x ∈ n.children) : ∃ m ∈ row.nodes parent? id leaf, m.id = x := by
  cases made_of_mem mem with
  | word place _ childless _ _ =>
    rw [childless] at child
    cases child
  | phrase below leaf' _ _ _ within kids =>
    rw [kids] at child
    obtain ⟨m, listed, same⟩ := List.mem_map.mp child
    exact ⟨m, within (List.mem_of_mem_filter listed), same⟩

theorem children_ascending {n : Node} (mem : n ∈ row.nodes parent? id leaf) :
    n.children.Pairwise (· < ·) := by
  cases made_of_mem mem with
  | word place _ childless _ _ =>
    rw [childless]
    exact .nil
  | phrase below leaf' _ _ _ _ kids =>
    have numbers : ((below.nodes (some n.id) (n.id + 1) leaf').map Node.id).Pairwise (· < ·) := by
      rw [map_id_nodes]
      exact List.pairwise_lt_range'
    rw [kids]
    exact numbers.sublist (List.filter_sublist.map Node.id)

/-- The words among the numbers of a subtree are those at the places of its range. -/
theorem leaf_below_iff {n l : Node} (mem : n ∈ row.nodes parent? id leaf)
    (mem' : l ∈ row.nodes parent? id leaf) {place : Nat} (here : l.leaf? = some place) :
    n.id ≤ l.id ∧ l.id < n.id + n.size ↔ n.span.1 ≤ place ∧ place < n.span.2 := by
  cases made_of_mem mem with
  | word place' here' _ one span =>
    rw [one, span]
    constructor
    · intro bounds
      have eq : n = l := eq_of_id_eq mem mem' (by omega)
      subst eq
      cases here'.symm.trans here
      exact ⟨Nat.le_refl _, Nat.lt_succ_self _⟩
    · rintro ⟨low, high⟩
      have same : place' = place := Nat.le_antisymm low (Nat.le_of_lt_succ high)
      rw [eq_of_leaf_eq mem mem' (same ▸ here') here]
      omega
  | phrase below leaf' none size span within _ =>
    have range : n.span.1 ≤ place ∧ place < n.span.2 ↔
        leaf' ≤ place ∧ place < leaf' + below.leafCount := by
      rw [span, leafSpan]
      split
      next empty => simp [empty]
      next => rfl
    rw [range, size]
    constructor
    · rintro ⟨low, high⟩
      have apart : n.id ≠ l.id := by
        intro same
        rw [eq_of_id_eq mem mem' same, here] at none
        cases none
      obtain ⟨l', inner, same⟩ : ∃ l' ∈ below.nodes (some n.id) (n.id + 1) leaf', l'.id = l.id :=
        exists_of_bounds (by omega) (by omega)
      rw [eq_of_id_eq (within inner) mem' same] at inner
      exact leaf_bounds inner here
    · rintro ⟨low, high⟩
      obtain ⟨l', inner, here'⟩ : ∃ l' ∈ below.nodes (some n.id) (n.id + 1) leaf',
          l'.leaf? = some place := exists_of_leaf_bounds low high
      have bounds := id_bounds inner
      rw [eq_of_leaf_eq (within inner) mem' here' here] at bounds
      omega

end Row

namespace ParseTree

variable {tree : ParseTree}

/-- `x` is the node `y`, or lies below it by the links to the parents. -/
inductive Below (tree : ParseTree) : Nat → Nat → Prop
  | self (x : Nat) : Below tree x x
  | up {x p y : Nat} : (tree.node? x).bind Node.parent? = some p → Below tree p y → Below tree x y

theorem node?_eq_some_iff {i : Nat} {n : Node} :
    tree.node? i = some n ↔ n ∈ tree.nodes ∧ n.id = i := by
  have number : ∀ {j : Nat} {m : Node}, tree.nodes[j]? = some m → m.id = j := by
    intro j m at_j
    rw [Row.id_of_getElem? at_j, Nat.zero_add]
  constructor
  · intro at_i
    exact ⟨List.mem_of_getElem? at_i, number at_i⟩
  · rintro ⟨mem, rfl⟩
    obtain ⟨j, at_j⟩ := List.mem_iff_getElem?.mp mem
    rw [node?, number at_j]
    exact at_j

/-- The first node is the outermost bracket, and what it holds comes behind. -/
theorem exists_nodes_eq (tree : ParseTree) : ∃ first, tree.nodes =
    first :: tree.below.nodes (some 0) 1 0 ∧ first.id = 0 ∧ first.label = tree.label ∧
      first.parent? = none := by
  have all : tree.nodes = _ :: (tree.below.nodes (some 0) 1 0 ++ []) := rfl
  rw [List.append_nil] at all
  exact ⟨_, all, rfl, rfl, rfl⟩

theorem parent?_eq_none_iff {n : Node} (mem : n ∈ tree.nodes) : n.parent? = none ↔ n.id = 0 := by
  obtain ⟨first, split, zero, -, top⟩ := tree.exists_nodes_eq
  rw [split] at mem
  rcases List.mem_cons.mp mem with rfl | inner
  · exact iff_of_true top zero
  · refine iff_of_false ?_ (Nat.ne_of_gt (Row.id_bounds inner).1)
    rcases Row.parent_cases inner with same | ⟨q, -, same, -⟩
    · rw [same]
      exact Option.some_ne_none 0
    · rw [same]
      exact Option.some_ne_none q.id

theorem parent_lt {n : Node} (mem : n ∈ tree.nodes) {p : Nat} (child : n.parent? = some p) :
    p < n.id := by
  rcases Row.parent_cases mem with same | ⟨q, -, same, lt, -⟩
  · cases same.symm.trans child
  · cases same.symm.trans child
    exact lt

theorem Below.trans {x y z : Nat} (h : tree.Below x y) (h' : tree.Below y z) : tree.Below x z := by
  induction h with
  | self => exact h'
  | up parent _ ih => exact .up parent (ih h')

/-- What lies below a node are the nodes whose numbers follow its own. -/
theorem below_iff {n : Node} (mem : n ∈ tree.nodes) {x : Nat} :
    tree.Below x n.id ↔ n.id ≤ x ∧ x < n.id + n.size := by
  constructor
  · intro below
    generalize same : n.id = y at below
    induction below with
    | self x =>
      have some := (Row.subtree_le mem).1
      omega
    | @up x p y parent _ ih =>
      obtain ⟨m, at_x, child⟩ := Option.bind_eq_some_iff.mp parent
      obtain ⟨mem', rfl⟩ := node?_eq_some_iff.mp at_x
      obtain ⟨low, high⟩ := ih same
      rcases Row.parent_cases mem' with outer | ⟨q, listed, parent', lt, inside⟩
      · cases outer.symm.trans child
      · cases parent'.symm.trans child
        have nested := Row.subtree_nested mem listed (by omega) (by omega)
        omega
  · -- along the links to the parents, which have smaller numbers
    induction x using Nat.strongRecOn with
    | _ x ih =>
      rintro ⟨low, high⟩
      by_cases same : x = n.id
      · rw [same]
        exact .self n.id
      · cases Row.made_of_mem mem with
        | word place _ _ one _ => omega
        | phrase below leaf _ size _ within _ =>
          obtain ⟨m, inner, rfl⟩ : ∃ m ∈ below.nodes (some n.id) (n.id + 1) leaf, m.id = x :=
            Row.exists_of_bounds (by omega) (by omega)
          have at_x : tree.node? m.id = some m := node?_eq_some_iff.mpr ⟨within inner, rfl⟩
          rcases Row.parent_cases inner with child | ⟨q, listed, child, lt, -⟩
          · exact .up (by rw [at_x]; exact child) (.self n.id)
          · have bounds := Row.id_bounds listed
            exact .up (by rw [at_x]; exact child) (ih q.id lt (by omega))

/-- Of two nodes above a third one lies below the other. -/
theorem Below.total {n m : Node} (mem : n ∈ tree.nodes) (mem' : m ∈ tree.nodes) {x : Nat}
    (h : tree.Below x n.id) (h' : tree.Below x m.id) :
    tree.Below n.id m.id ∨ tree.Below m.id n.id := by
  rw [below_iff mem] at h ⊢
  rw [below_iff mem'] at h' ⊢
  omega

theorem leafId?_eq_some_iff {place i : Nat} :
    tree.leafId? place = some i ↔ ∃ n, tree.node? i = some n ∧ n.leaf? = some place := by
  have leaf : ∀ {j : Nat} {n : Node}, (tree.nodes.filter Node.isLeaf)[j]? = some n →
      n.leaf? = some j := by
    intro j n at_j
    have places := congrArg (fun row : List (Option Nat) => row[j]?)
      (tree.asRow.map_leaf_nodes none 0 0)
    have at_j' : ((tree.asRow.nodes none 0 0).filter Node.isLeaf)[j]? = some n := at_j
    simp only [List.getElem?_map, at_j', Option.map_some] at places
    obtain ⟨k, at_k, same⟩ := Option.map_eq_some_iff.mp places.symm
    obtain ⟨lt, rfl⟩ := List.getElem?_eq_some_iff.mp at_k
    rw [List.getElem_range', Nat.one_mul, Nat.zero_add] at same
    exact same.symm
  rw [leafId?, leafIds, List.getElem?_map, Option.map_eq_some_iff]
  constructor
  · rintro ⟨n, at_place, rfl⟩
    have mem : n ∈ tree.nodes := List.mem_of_mem_filter (List.mem_of_getElem? at_place)
    exact ⟨n, node?_eq_some_iff.mpr ⟨mem, rfl⟩, leaf at_place⟩
  · rintro ⟨n, at_i, here⟩
    obtain ⟨mem, rfl⟩ := node?_eq_some_iff.mp at_i
    have isLeaf : n.isLeaf = true := by rw [Node.isLeaf, here]; rfl
    obtain ⟨j, at_j⟩ := List.mem_iff_getElem?.mp (List.mem_filter.mpr ⟨mem, isLeaf⟩)
    cases here.symm.trans (leaf at_j)
    exact ⟨n, at_j, rfl⟩

/-- The range of a node holds the places of the words below it. -/
theorem mem_span_iff {n : Node} (mem : n ∈ tree.nodes) (place : Nat) :
    n.span.1 ≤ place ∧ place < n.span.2 ↔
      ∃ l, tree.leafId? place = some l ∧ tree.Below l n.id := by
  constructor
  · intro inside
    have count : n.span.2 ≤ 0 + tree.asRow.leafCount := Row.span_le_of_mem_nodes mem
    obtain ⟨l, listed, here⟩ : ∃ l ∈ tree.nodes, l.leaf? = some place :=
      Row.exists_of_leaf_bounds (Nat.zero_le place) (by omega)
    refine ⟨l.id, leafId?_eq_some_iff.mpr ⟨l, node?_eq_some_iff.mpr ⟨listed, rfl⟩, here⟩, ?_⟩
    exact (below_iff mem).mpr ((Row.leaf_below_iff mem listed here).mpr inside)
  · rintro ⟨x, listed, below⟩
    obtain ⟨l, at_x, here⟩ := leafId?_eq_some_iff.mp listed
    obtain ⟨mem', rfl⟩ := node?_eq_some_iff.mp at_x
    exact (Row.leaf_below_iff mem mem' here).mp ((below_iff mem).mp below)

theorem span_cases {n : Node} (mem : n ∈ tree.nodes) :
    n.span = (0, 0) ∨ n.span.1 < n.span.2 := by
  cases Row.made_of_mem mem with
  | word place _ _ _ span =>
    rw [span]
    exact .inr (Nat.lt_succ_self place)
  | phrase below leaf _ _ span _ _ =>
    rw [span, leafSpan]
    split
    · exact .inl rfl
    · exact .inr (by show leaf < leaf + below.leafCount; omega)

/-- The range of a node lies in those of the nodes above it. -/
theorem span_le_of_below {n m : Node} (mem : n ∈ tree.nodes) (mem' : m ∈ tree.nodes)
    (below : tree.Below n.id m.id) (some : n.span.1 < n.span.2) :
    m.span.1 ≤ n.span.1 ∧ n.span.2 ≤ m.span.2 := by
  have inside : ∀ place, n.span.1 ≤ place ∧ place < n.span.2 →
      m.span.1 ≤ place ∧ place < m.span.2 := by
    intro place here
    obtain ⟨l, listed, lower⟩ := (mem_span_iff mem place).mp here
    exact (mem_span_iff mem' place).mpr ⟨l, listed, lower.trans below⟩
  have first := inside n.span.1 ⟨Nat.le_refl _, some⟩
  have last := inside (n.span.2 - 1) (by omega)
  omega

theorem span_nested_or_apart {n m : Node} (mem : n ∈ tree.nodes) (mem' : m ∈ tree.nodes) :
    (m.span.1 ≤ n.span.1 ∧ n.span.2 ≤ m.span.2) ∨ (n.span.1 ≤ m.span.1 ∧ m.span.2 ≤ n.span.2) ∨
      n.span.2 ≤ m.span.1 ∨ m.span.2 ≤ n.span.1 := by
  rcases span_cases mem with empty | some
  · rw [empty]
    exact .inr (.inr (.inl (Nat.zero_le _)))
  rcases span_cases mem' with empty | some'
  · rw [empty]
    exact .inr (.inr (.inr (Nat.zero_le _)))
  by_cases apart : n.span.2 ≤ m.span.1 ∨ m.span.2 ≤ n.span.1
  · exact .inr (.inr apart)
  · -- the ranges have a place in common, and the word there lies below both nodes
    obtain ⟨l, listed, below⟩ := (mem_span_iff mem (max n.span.1 m.span.1)).mp (by omega)
    obtain ⟨l', listed', below'⟩ := (mem_span_iff mem' (max n.span.1 m.span.1)).mp (by omega)
    cases listed.symm.trans listed'
    rcases below.total mem mem' below' with lower | lower
    · exact .inl (span_le_of_below mem mem' lower some)
    · exact .inr (.inl (span_le_of_below mem' mem lower some'))

/-- What the nodes of a tree say of each other. -/
structure WellLinked (tree : ParseTree) : Prop where
  root : (tree.node? 0).map Node.label = some tree.label
  number : ∀ i n, tree.node? i = some n → n.id = i
  parentless : ∀ i n, tree.node? i = some n → (n.parent? = none ↔ i = 0)
  earlier : ∀ i n p, tree.node? i = some n → n.parent? = some p → p < i
  children : ∀ p n, tree.node? p = some n →
    ∀ x, x ∈ n.children ↔ (tree.node? x).bind Node.parent? = some p
  ascending : ∀ p n, tree.node? p = some n → n.children.Pairwise (· < ·)
  leaves : ∀ place i, tree.leafId? place = some i ↔
    ∃ n, tree.node? i = some n ∧ n.leaf? = some place
  childless : ∀ i n, tree.node? i = some n → n.isLeaf = true → n.children = []
  /-- The range of a node holds the places of the words below it and no others. -/
  span : ∀ i n, tree.node? i = some n → ∀ place, n.span.1 ≤ place ∧ place < n.span.2 ↔
    ∃ l, tree.leafId? place = some l ∧ tree.Below l i
  wordless : ∀ i n, tree.node? i = some n →
    (∀ place l, tree.leafId? place = some l → ¬ tree.Below l i) → n.span = (0, 0)
  nested : ∀ i j n m, tree.node? i = some n → tree.node? j = some m →
    (m.span.1 ≤ n.span.1 ∧ n.span.2 ≤ m.span.2) ∨ (n.span.1 ≤ m.span.1 ∧ m.span.2 ≤ n.span.2) ∨
      n.span.2 ≤ m.span.1 ∨ m.span.2 ≤ n.span.1

/-- The parent links, the children, the list of words and the ranges of the nodes of a tree all
describe the same tree. -/
theorem nodes_wellLinked (tree : ParseTree) : tree.WellLinked where
  root := by
    obtain ⟨first, split, -, label, -⟩ := tree.exists_nodes_eq
    rw [node?, split, List.getElem?_cons_zero, Option.map_some, label]
  number := by
    intro i n at_i
    exact (node?_eq_some_iff.mp at_i).2
  parentless := by
    intro i n at_i
    obtain ⟨mem, rfl⟩ := node?_eq_some_iff.mp at_i
    exact parent?_eq_none_iff mem
  earlier := by
    intro i n p at_i child
    obtain ⟨mem, rfl⟩ := node?_eq_some_iff.mp at_i
    exact parent_lt mem child
  children := by
    intro p n at_p x
    obtain ⟨mem, rfl⟩ := node?_eq_some_iff.mp at_p
    have outer : ∀ p, (none : Option Nat) = some p → p < 0 := by
      intro p none
      cases none
    constructor
    · intro child
      obtain ⟨m, mem', rfl⟩ := Row.exists_of_mem_children mem child
      rw [node?_eq_some_iff.mpr ⟨mem', rfl⟩]
      exact (Row.mem_children_iff outer mem mem').mp child
    · intro linked
      obtain ⟨m, at_x, child⟩ := Option.bind_eq_some_iff.mp linked
      obtain ⟨mem', rfl⟩ := node?_eq_some_iff.mp at_x
      exact (Row.mem_children_iff outer mem mem').mpr child
  ascending := by
    intro p n at_p
    exact Row.children_ascending (node?_eq_some_iff.mp at_p).1
  leaves := by
    intro place i
    exact leafId?_eq_some_iff
  childless := by
    intro i n at_i isLeaf
    cases Row.made_of_mem (node?_eq_some_iff.mp at_i).1 with
    | word _ _ childless _ _ => exact childless
    | phrase _ _ none _ _ _ _ =>
      rw [Node.isLeaf, none] at isLeaf
      cases isLeaf
  span := by
    intro i n at_i place
    obtain ⟨mem, rfl⟩ := node?_eq_some_iff.mp at_i
    exact mem_span_iff mem place
  wordless := by
    intro i n at_i bare
    obtain ⟨mem, rfl⟩ := node?_eq_some_iff.mp at_i
    rcases span_cases mem with empty | some
    · exact empty
    · obtain ⟨l, listed, below⟩ := (mem_span_iff mem n.span.1).mp ⟨Nat.le_refl _, some⟩
      exact absurd below (bare n.span.1 l listed)
  nested := by
    intro i j n m at_i at_j
    exact span_nested_or_apart (node?_eq_some_iff.mp at_i).1 (node?_eq_some_iff.mp at_j).1

end ParseTree

end Discourse
