import Discourse.Document
import Discourse.Fault
import Discourse.LabelledSpan
import Discourse.Mention.Span
import Discourse.Tree.Reader
/-!
# Column files

A column file writes one token per line, with its word, tags and brackets in fields separated by
blanks.  A blank line ends a sentence, and a document stands between a line that begins it and a
line that ends it.  Bracket columns hold the parse, the named entities and the coreference; the
last of these gives the gold mentions, and predicted mentions there are none.
-/

namespace Discourse

/-- The line of one token. -/
structure TokenRow where
  line : Nat
  fields : List String
deriving DecidableEq, Repr, Inhabited

namespace TokenRow

/-- A field by its place; an empty text beyond the last one. -/
def field (row : TokenRow) (i : Nat) : String := (row.fields[i]?).getD ""

/-- The word. -/
def word (row : TokenRow) : String := row.field 3

/-- The part of speech. -/
def pos (row : TokenRow) : String := row.field 4

/-- The brackets of the parse, with a star at the place of the token. -/
def parseBit (row : TokenRow) : String := row.field 5

/-- The speaker, with underscores for blanks. -/
def speaker (row : TokenRow) : String := row.field 9

/-- The place of the column of named entities. -/
def entityColumn : Nat := 10

/-- The brackets of the named entities. -/
def entityBit (row : TokenRow) : String := row.field entityColumn

/-- The brackets of the coreference, in the last field. -/
def coreferenceBit (row : TokenRow) : String := (row.fields.getLast?).getD ""

/-- The least number of fields. -/
def leastFields : Nat := 12

/-- The token of a line, without its named entity. -/
def token (row : TokenRow) : Token :=
  let speaker := String.ofList (row.speaker.toList.map fun c => if c = '_' then ' ' else c)
  { Token.ofWord row.word row.pos with
    speaker? := if speaker = "-" then none else some speaker }

/-- The bracketed text of a line: the token in brackets at the place of the star, or alone where
there is no star. -/
def bracketed (row : TokenRow) : String :=
  let leaf := s!"({row.pos} {row.word})"
  match Text.cutAt? '*' (Text.replace "NOPARSE" "X" row.parseBit) with
  | some (before, after) => before ++ leaf ++ after
  | none => leaf

end TokenRow

/-! ## Sentences -/

/-- The column of named entities writes stars, and its closing brackets name nothing. -/
def entityStyle : ColumnStyle := ⟨"*", false⟩

/-- The column of coreference writes a hyphen, and its closing brackets name their clusters. -/
def coreferenceStyle : ColumnStyle := ⟨"-", true⟩

/-- A row of tokens with the tags of labelled spans; of several spans over one token the last
counts. -/
def tagEntities (tokens : List Token) (spans : List LabelledSpan) : List Token :=
  tokens.zipIdx.map fun (t, i) =>
    match (spans.filter fun span => span.start ≤ i && i < span.stop).getLast? with
    | some span => { t with ner := span.label }
    | none => t

/-- The gold mention of a labelled span, whose label is the number of its cluster. -/
def goldSpan (line : Nat) (span : LabelledSpan) : Except ReadError MentionSpan :=
  match decimalValue? span.label with
  | some cluster => .ok { start := span.start, stop := span.stop, goldCluster? := some cluster }
  | none =>
    .error ⟨[s!"Bad coreference label {Text.quoted span.label} near line {line}"], .number⟩

/-- Whether a span starts before another, or is the longer one from the same token. -/
def MentionSpan.isNotAfter (a b : MentionSpan) : Bool :=
  a.start < b.start || (a.start == b.start && b.stop ≤ a.stop)

/-- The sentence and the gold mentions of its lines. -/
def readRows (rows : List TokenRow) : Except ReadError (Sentence × List MentionSpan) := do
  let line := (rows.head?.map TokenRow.line).getD 0
  let named ← (labelledSpans entityStyle TokenRow.entityColumn line
    (rows.map TokenRow.entityBit)).mapError ReadError.ofFault
  let lastColumn := (rows.head?.map fun row => row.fields.length - 1).getD 0
  let coreferent ← (labelledSpans coreferenceStyle lastColumn line
    (rows.map TokenRow.coreferenceBit)).mapError ReadError.ofFault
  let gold ← coreferent.mapM (goldSpan line)
  let tree ← (ParseTree.parse (" ".intercalate (rows.map TokenRow.bracketed))).mapError
    fun fault => (ReadError.ofFault fault).within s!"Bad parse bits near line {line}"
  return ({ tokens := tagEntities (rows.map TokenRow.token) named, parse? := some tree },
    gold.mergeSort MentionSpan.isNotAfter)

/-- The document of the lines of its sentences. -/
def readSentences (id : String) (sentences : List (List TokenRow)) :
    Except ReadError (Document × RawMentions) := do
  let built ← sentences.mapM readRows
  return ({ Document.ofSentences id (built.map Prod.fst) with marked := true, fromColumns := true },
    { predicted := built.map fun _ => [], gold? := some (built.map Prod.snd) })

/-! ## Lines -/

/-- What a line is. -/
inductive ColumnLine
  | blank
  | begins (id : String)
  | ends
  | row (fields : List String)
deriving DecidableEq, Repr

/-- What a line of text is. -/
def ColumnLine.ofString (text : String) : ColumnLine :=
  let line := Text.trim text
  if line.isEmpty then .blank
  else match Text.dropStart? "#begin document " line with
    | some id => .begins (Text.trim id)
    | none =>
      if Text.startsWith "#end document" line then .ends else .row (Text.words line)

/-- A document that is not yet ended. -/
structure PendingDocument where
  id : String
  sentences : List (List TokenRow)
deriving DecidableEq, Repr

/-- A file read up to some line. -/
structure ColumnFile where
  finished : List (Document × RawMentions) := []
  pending? : Option PendingDocument := none
  /-- The lines of the sentence being read. -/
  rows : List TokenRow := []

namespace ColumnFile

/-- The document that is not yet ended, with one more sentence unless that is empty. -/
def closeSentence (doc : PendingDocument) (rows : List TokenRow) : PendingDocument :=
  if rows.isEmpty then doc else { doc with sentences := doc.sentences ++ [rows] }

/-- The file after one more line. -/
def readLine (file : ColumnFile) (number : Nat) : ColumnLine → Except ReadError ColumnFile
  | .blank =>
    match file.pending? with
    | some doc => .ok { file with pending? := some (closeSentence doc file.rows), rows := [] }
    | none => .ok file
  | .begins id => .ok { file with pending? := some ⟨id, []⟩ }
  | .ends =>
    match file.pending? with
    | none => .error (.invalid s!"End of document without a beginning at line {number}")
    | some doc =>
      let doc := closeSentence doc file.rows
      (readSentences doc.id doc.sentences).map fun built =>
        { finished := file.finished ++ [built] }
  | .row fields =>
    if file.pending?.isNone then
      .error (.invalid s!"Token line outside of a document at line {number}")
    else if fields.length < TokenRow.leastFields then
      .error (.invalid
        s!"Expected at least {TokenRow.leastFields} fields, found {fields.length} at line {number}")
    else .ok { file with rows := file.rows ++ [⟨number, fields⟩] }

/-- The file after a row of lines. -/
def readLines (file : ColumnFile) : List (ColumnLine × Nat) → Except ReadError ColumnFile
  | [] => .ok file
  | (line, number) :: rest => do
    let next ← file.readLine number line
    next.readLines rest

end ColumnFile

/-- The documents of a column file, each with its gold mentions. -/
def readColumnFile (text : String) : Except ReadError (List (Document × RawMentions)) := do
  let file ← ColumnFile.readLines {} (((Text.lines text).map ColumnLine.ofString).zipIdx 1)
  if file.pending?.isSome then .error (.invalid "Unterminated document at end of input")
  else return file.finished

end Discourse
