/-!
# Constituent trees

A parse tree is a labelled bracket around a row of constituents, each a word or a bracket of its
own.  Rows and brackets are one inductive type: a row is empty, or starts with a word, or starts
with a phrase that has a row below it.

Nodes are numbered in the order in which they appear in the bracketed text: a bracket before what
it holds, and a word at its place.  `nodes` lists what is known of each node under its number.
-/

namespace Discourse

/-- A row of sibling constituents. -/
inductive Row
  | done
  | word (text : String) (next : Row)
  | phrase (label : String) (below next : Row)
deriving DecidableEq, Repr, Inhabited

/-- A parse tree: the outermost bracket. -/
structure ParseTree where
  label : String
  below : Row
deriving DecidableEq, Repr, Inhabited

namespace Row

/-- The number of nodes in a row and below it. -/
def size : Row → Nat
  | done => 0
  | word _ next => next.size + 1
  | phrase _ below next => below.size + next.size + 1

/-- The words of a row, from left to right. -/
def leaves : Row → List String
  | done => []
  | word text next => text :: next.leaves
  | phrase _ below next => below.leaves ++ next.leaves

/-- The number of words of a row. -/
def leafCount : Row → Nat
  | done => 0
  | word _ next => next.leafCount + 1
  | phrase _ below next => below.leafCount + next.leafCount

/-- A row turned round and put in front of another; what is below a phrase stays as it is. -/
def reverseOnto : Row → Row → Row
  | done, onto => onto
  | word text next, onto => next.reverseOnto (word text onto)
  | phrase label below next, onto => next.reverseOnto (phrase label below onto)

/-- A row turned round. -/
def reverse (row : Row) : Row := row.reverseOnto done

/-- A row in bracketed form, with a space in front of every constituent. -/
def penn : Row → List Char
  | done => []
  | word text next => ' ' :: text.toList ++ next.penn
  | phrase label below next =>
    [' ', '('] ++ label.toList ++ below.penn ++ [')'] ++ next.penn

end Row

/-- A tree in bracketed form. -/
def ParseTree.penn (tree : ParseTree) : String :=
  String.ofList ('(' :: tree.label.toList ++ tree.below.penn ++ [')'])

/-- A tree as a row of one constituent. -/
def ParseTree.asRow (tree : ParseTree) : Row := .phrase tree.label tree.below .done

/-- The number of nodes of a tree. -/
def ParseTree.size (tree : ParseTree) : Nat := tree.asRow.size

/-- The words of a tree, from left to right. -/
def ParseTree.leaves (tree : ParseTree) : List String := tree.below.leaves

/-- The number of words of a tree. -/
def ParseTree.leafCount (tree : ParseTree) : Nat := tree.below.leafCount

/-- A label without function tags and indices: all before the first hyphen or equals sign, unless
the label itself starts with a hyphen. -/
def basicCategory (label : String) : String :=
  match label.toList with
  | '-' :: _ => label
  | cs => String.ofList (cs.takeWhile fun c => c != '-' && c != '=')

end Discourse
