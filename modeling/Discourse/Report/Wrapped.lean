import Discourse.Text.Blank
/-!
# Wrapped text

A text is wrapped by filling lines with its words, greedily: a word goes onto the line before it
if it fits there with a space, and else starts a line.  Width is counted in bytes.
-/

namespace Discourse.Text

/-- Words dealt out to lines of a given width.  `line` holds the words of the line being filled,
the last one first, and `size` its bytes. -/
def fillLines (width : Nat) (line : List String) (size : Nat) : List String → List (List String)
  | [] => if line.isEmpty then [] else [line.reverse]
  | word :: rest =>
    if line.isEmpty then fillLines width [word] word.utf8ByteSize rest
    else if width < size + word.utf8ByteSize + 1 then
      line.reverse :: fillLines width [word] word.utf8ByteSize rest
    else fillLines width (word :: line) (size + 1 + word.utf8ByteSize) rest

/-- The lines of a text wrapped to a given width. -/
def wrappedLines (width : Nat) (text : String) : List String :=
  (fillLines width [] 0 (words text)).map fun line => " ".intercalate line

/-- A text wrapped to a given width. -/
def wrap (width : Nat) (text : String) : String := "\n".intercalate (wrappedLines width text)

end Discourse.Text
