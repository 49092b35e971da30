import Discourse.Fault
import Discourse.Text.Blank
import Discourse.Tree.Basic
/-!
# Reading bracketed trees

A bracketed text is a row of symbols: the two brackets, and words, which are the maximal runs of
other characters that are not blank.  The word right after an opening bracket is its label, and
every other word is a leaf.  A stack of open brackets reads the symbols from left to right; the
text is a tree exactly if one outermost bracket holds all of it.
-/

namespace Discourse

/-- A symbol of a bracketed text. -/
inductive Symbol
  | opening
  | closing
  | word (letters : List Char)
deriving DecidableEq, Repr

/-- One character put in front of a row of symbols; the flag tells whether the row starts with a
word at the very next character. -/
def consSymbol (c : Char) : List Symbol × Bool → List Symbol × Bool
  | (row, joined) =>
    if c = '(' then (.opening :: row, false)
    else if c = ')' then (.closing :: row, false)
    else if Text.isBlank c then (row, false)
    else match row, joined with
      | .word letters :: rest, true => (.word (c :: letters) :: rest, true)
      | _, _ => (.word [c] :: row, true)

/-- The symbols of a text. -/
def symbols (text : String) : List Symbol :=
  (text.toList.foldr consSymbol ([], false)).1

/-- A bracket that is still open, with what it holds so far, the last constituent first. -/
structure OpenBracket where
  label : String
  held : Row
deriving DecidableEq, Repr

/-- A bracketed text read up to some symbol: the open brackets, the innermost first, and the
outermost bracket once it is closed. -/
structure BracketState where
  pending : List OpenBracket := []
  root? : Option ParseTree := none
deriving DecidableEq, Repr

namespace BracketState

/-- An opening bracket with its label. -/
def opened (st : BracketState) (label : String) : Except Fault BracketState :=
  if st.pending.isEmpty && st.root?.isSome then
    .error (.malformedTree "more than one top-level bracket")
  else .ok { st with pending := ⟨label, .done⟩ :: st.pending }

/-- A closing bracket. -/
def closed (st : BracketState) : Except Fault BracketState :=
  match st.pending with
  | [] => .error (.malformedTree "unexpected closing bracket")
  | [outermost] => .ok ⟨[], some ⟨outermost.label, outermost.held.reverse⟩⟩
  | inner :: outer :: rest =>
    .ok { st with
      pending := { outer with held := .phrase inner.label inner.held.reverse outer.held } :: rest }

/-- A word that is a leaf. -/
def leaf (st : BracketState) (text : String) : Except Fault BracketState :=
  match st.pending with
  | [] => .error (.malformedTree "leaf outside of any bracket")
  | inner :: rest => .ok { st with pending := { inner with held := .word text inner.held } :: rest }

/-- The tree at the end of the text. -/
def finish (st : BracketState) : Except Fault ParseTree :=
  if !st.pending.isEmpty then .error (.malformedTree "unclosed bracket")
  else match st.root? with
    | none => .error (.malformedTree "empty tree")
    | some tree => .ok tree

/-- The state after a row of symbols. -/
def read (st : BracketState) : List Symbol → Except Fault BracketState
  | [] => .ok st
  | .opening :: .word letters :: rest => do
    let next ← st.opened (String.ofList letters)
    next.read rest
  | .opening :: rest => do
    let next ← st.opened ""
    next.read rest
  | .closing :: rest => do
    let next ← st.closed
    next.read rest
  | .word letters :: rest => do
    let next ← st.leaf (String.ofList letters)
    next.read rest

end BracketState

/-- The tree of a bracketed text. -/
def ParseTree.parse (text : String) : Except Fault ParseTree := do
  let st ← BracketState.read {} (symbols text)
  st.finish

end Discourse
