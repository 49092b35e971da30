import Discourse.Fault
import Discourse.Text.Blank
/-!
# Chunks

Chunk tags cut a sentence into phrases: a tag B-x starts a phrase of kind x, a tag I-x continues
one, and O stands for a token outside any phrase.  A tag I-x is legal only right after a tag of a
phrase of the same kind.
-/

namespace Discourse

/-- A run of tokens with one phrase label, or a token outside any phrase. -/
structure Chunk where
  label? : Option String
  start : Nat
  /-- One past the last token. -/
  stop : Nat
deriving DecidableEq, Repr, Inhabited

/-- A chunk tag. -/
inductive ChunkTag
  | outside
  | begins (label : String)
  | continues (label : String)
deriving DecidableEq, Repr

/-- The tag that a text writes. -/
def ChunkTag.ofString? (tag : String) : Option ChunkTag :=
  if tag = "O" then some .outside
  else match Text.cutAt? '-' tag with
    | some ("B", label) => some (.begins label)
    | some ("I", label) => some (.continues label)
    | _ => none

/-- Chunks, the last one first, with one more tag; none if the tag continues nothing. -/
def addTag? (index : Nat) (chunks : List Chunk) : ChunkTag → Option (List Chunk)
  | .outside => some (⟨none, index, index + 1⟩ :: chunks)
  | .begins label => some (⟨some label, index, index + 1⟩ :: chunks)
  | .continues label =>
    match chunks with
    | last :: rest =>
      if last.stop = index ∧ last.label? = some label then
        some ({ last with stop := index + 1 } :: rest)
      else none
    | [] => none

/-- Chunks, the last one first, after the tags from `index` on. -/
def addTags (index : Nat) (chunks : List Chunk) : List String → Except Fault (List Chunk)
  | [] => .ok chunks
  | tag :: rest =>
    match (ChunkTag.ofString? tag).bind (addTag? index chunks) with
    | some chunks => addTags (index + 1) chunks rest
    | none => .error (.illegalChunkTag index tag)

/-- The chunks that a row of tags describes, from left to right. -/
def decodeChunks (tags : List String) : Except Fault (List Chunk) :=
  (addTags 0 [] tags).map List.reverse

end Discourse
