import Discourse.Tree.Head
/-!
# Nodes by number

`ParseTree.nodes` lists the nodes of a tree by number, each with its parent, its children, the
words below it and its head.  Everything that speaks of a tree by node numbers reads this list.
-/

namespace Discourse

/-- What is known of one node. -/
structure Node where
  id : Nat
  label : String
  parent? : Option Nat
  /-- The numbers of the children, from left to right. -/
  children : List Nat
  /-- The number of nodes in the subtree, this one included. -/
  size : Nat
  /-- The place among the words, for a word. -/
  leaf? : Option Nat
  /-- The range of words below, its end exclusive; (0, 0) if there are none. -/
  span : Nat × Nat
  /-- The child that is the head. -/
  headChild? : Option Nat
  /-- The node that following heads leads to. -/
  head : Nat
deriving DecidableEq, Repr, Inhabited

/-- Whether a node is a word. -/
def Node.isLeaf (node : Node) : Bool := node.leaf?.isSome

/-- The range of `count` words from `first` on, with (0, 0) for no words. -/
def leafSpan (first count : Nat) : Nat × Nat :=
  if count = 0 then (0, 0) else (first, first + count)

/-- A node as its phrase sees it. -/
def Node.constituent (node : Node) : Constituent := ⟨node.id, node.label, node.head⟩

/-- The constituents of the phrase with a given number, among the nodes below it. -/
def constituentsOf (id : Nat) (below : List Node) : List Constituent :=
  (below.filter fun node => node.parent? == some id).map Node.constituent

/-- The nodes of a row, given the parent, the number of the first node and the place of the first
word. -/
def Row.nodes (parent? : Option Nat) (id leaf : Nat) : Row → List Node
  | .done => []
  | .word text next =>
    ⟨id, text, parent?, [], 1, some leaf, (leaf, leaf + 1), none, id⟩
      :: next.nodes parent? (id + 1) (leaf + 1)
  | .phrase label below next =>
    let inner := below.nodes (some id) (id + 1) leaf
    let kids := constituentsOf id inner
    let head? := headAmong? label kids
    ⟨id, label, parent?, kids.map Constituent.id, below.size + 1, none,
        leafSpan leaf below.leafCount, head?.map Constituent.id,
        (head?.map Constituent.head).getD id⟩
      :: inner ++ next.nodes parent? (id + 1 + below.size) (leaf + below.leafCount)

namespace ParseTree

/-- The nodes of a tree, by number. -/
def nodes (tree : ParseTree) : List Node := tree.asRow.nodes none 0 0

/-- The node with a given number. -/
def node? (tree : ParseTree) (id : Nat) : Option Node := tree.nodes[id]?

/-- The numbers of the words, from left to right. -/
def leafIds (tree : ParseTree) : List Nat := (tree.nodes.filter Node.isLeaf).map Node.id

/-- The number of the word at a given place. -/
def leafId? (tree : ParseTree) (index : Nat) : Option Nat := tree.leafIds[index]?

/-- Whether a node has a word as its only child. -/
def isPreterminal (tree : ParseTree) (id : Nat) : Bool :=
  let nodes := tree.nodes
  match (nodes[id]?).map Node.children with
  | some [only] => ((nodes[only]?).map Node.isLeaf).getD false
  | _ => false

/-- The nodes above a node, the nearest first. -/
def above (tree : ParseTree) (id : Nat) : List Node :=
  (tree.nodes.filter fun node => node.id < id && id < node.id + node.size).reverse

/-- The last node of the first unbroken run of noun phrases headed by `leaf`, on the way up. -/
def topOfRun (leaf : Nat) : Option Nat → List Node → Option Nat
  | found?, [] => found?
  | found?, node :: rest =>
    if node.head = leaf ∧ basicCategory node.label = "NP" then topOfRun leaf (some node.id) rest
    else if found?.isSome then found?
    else topOfRun leaf none rest

/-- The highest noun phrase of the unbroken run of those headed by a word; the word itself if it
heads none. -/
def nounPhraseFor (tree : ParseTree) (leaf : Nat) : Nat :=
  (topOfRun leaf none (tree.above leaf)).getD leaf

/-- The first bracket that covers exactly a range of words. -/
def covering? (tree : ParseTree) (start stop : Nat) : Option Node :=
  tree.nodes.find? fun node => !node.isLeaf && node.span == (start, stop)

end ParseTree

end Discourse
