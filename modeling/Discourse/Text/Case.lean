import Discourse.Text.CaseTable
import Discourse.Text.Property
/-!
# Small and capital letters

`lower` and `upper` write a whole text in small or capital letters by the full mappings, so that
one character may become several.  The small form of the Greek capital sigma depends on its
place: it is the final form exactly at the end of a word.  `equalFold` is the coarser comparison
that only identifies the ASCII letters.
-/

namespace Discourse.Text

/-- The image of a code point under the first run that holds it. -/
def runImage? : List (Nat × Nat × Nat × Nat) → Nat → Option Nat
  | [], _ => none
  | (first, last, step, image) :: rest, c =>
    if first ≤ c && c ≤ last && (c - first) % step == 0 then some (image + (c - first))
    else runImage? rest c

/-- Small form of one character, away from the rule for the final sigma. -/
def smallForm (c : Char) : List Char :=
  if c.toNat < 128 then [c.toLower]
  else if c.toNat = 0x130 then ['i', Char.ofNat 0x307]
  else [((runImage? smallFormRuns c.toNat).map Char.ofNat).getD c]

/-- Capital form of one character. -/
def capitalForm (c : Char) : List Char :=
  if c.toNat < 128 then [c.toUpper]
  else match longCapitalForms.lookup c.toNat with
    | some codes => codes.map Char.ofNat
    | none => [((runImage? capitalFormRuns c.toNat).map Char.ofNat).getD c]

/-- A capital letter, or a symbol that counts as one. -/
def isCapital (c : Char) : Bool :=
  capitalRuns.any fun (first, last, step) =>
    first ≤ c.toNat && c.toNat ≤ last && (c.toNat - first) % step == 0

/-- Whether the next character that matters for case is a letter with case. -/
def reachesCased (cs : List Char) : Bool :=
  match cs.dropWhile isCaseIgnorable with
  | [] => false
  | c :: _ => isCased c

/-- Small letters for the rest of a text; `before` is what has been passed, nearest first. -/
def lowerAfter (before : List Char) : List Char → List Char
  | [] => []
  | c :: rest =>
    let image :=
      if c.toNat = 0x3A3 then
        if reachesCased before && !reachesCased rest then [Char.ofNat 0x3C2] else [Char.ofNat 0x3C3]
      else smallForm c
    image ++ lowerAfter (c :: before) rest

/-- The text in small letters. -/
def lower (s : String) : String :=
  String.ofList (lowerAfter [] s.toList)

/-- The text in capital letters. -/
def upper (s : String) : String :=
  String.ofList (s.toList.flatMap capitalForm)

/-- Equality of two texts up to the case of ASCII letters. -/
def equalFold (s t : String) : Bool :=
  s.toList.map Char.toLower == t.toList.map Char.toLower

end Discourse.Text
