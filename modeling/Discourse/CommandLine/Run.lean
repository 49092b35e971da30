import Discourse.CommandLine.Command
import Discourse.CommandLine.Reading
import Discourse.Report.Machine
import Discourse.Report.Overview
/-!
# Runs

A run carries out a command on a disk.  A document that cannot be attributed does not keep the
others from being attributed; the run then fails at its end.
-/

namespace Discourse.CommandLine

variable {m : Type → Type} [Monad m]

/-- How a run ends. -/
inductive Outcome
  | success
  | failure (e : ReadError)
  /-- The command line is wrong. -/
  | usage
  /-- A document names a token that it does not have, or positions whose sum is too large. -/
  | broken
deriving DecidableEq, Repr

/-- The exit code of a run. -/
def Outcome.code : Outcome → Nat
  | .success => 0
  | .failure _ => 1
  | .usage => 2
  | .broken => 101

/-- The documents of an input. -/
def loadDocuments (disk : Disk m) (columns : Bool) (path : String) :
    ExceptT ReadError m (List (Document × RawMentions)) :=
  if columns then within "Failed to parse CoNLL input" (readColumnsFile disk path)
  else
    within "Failed to parse input document" do return [← readDocumentFile disk path]

/-- The documents of several inputs, in order. -/
def loadAll (disk : Disk m) (columns : Bool) :
    List String → ExceptT ReadError m (List (Document × RawMentions))
  | [] => return []
  | path :: rest => do
    let first ← loadDocuments disk columns path
    return first ++ (← loadAll disk columns rest)

/-! ## Attribution -/

/-- A character that a file name keeps. -/
def isNameChar (c : Char) : Bool := c.isAlphanum || c == '-' || c == '_'

/-- The name of the reports of a document: its id with underscores for unusual characters. -/
def reportName (id : String) : String :=
  String.ofList (id.toList.map fun c => if isNameChar c then c else '_')

/-- How documents are attributed. -/
structure RunSettings where
  lexicon : Lexicon
  preparation : PreparationSettings
  attribution : AttributionSettings
  scorer? : Option Scorer
  /-- Whether readable reports are written too. -/
  readable : Bool
  output : String
deriving Inhabited

/-- A document prepared and attributed. -/
def RunSettings.attribute (settings : RunSettings) (document : Document × RawMentions) :
    Except Stop (Document × AttributionSummary) :=
  match document.1.prepare settings.lexicon settings.preparation document.2 with
  | (_, .error stop) => .error stop
  | (doc, .ok _) => doc.attributeQuotes settings.lexicon settings.attribution settings.scorer?

/-- How the work on one document ends. -/
inductive DocumentEnd
  | finished
  | failed
  | broken
deriving DecidableEq, Repr

/-- The reports of an attributed document written to the disk; whether that was possible. -/
def writeReports (disk : Disk m) (settings : RunSettings) (doc : Document)
    (summary : AttributionSummary) : m Bool := do
  let stem := reportName doc.id
  let text := (doc.report summary).machineText
  if ← disk.write (joinPath settings.output (stem ++ ".json")) text then
    if settings.readable then
      disk.write (joinPath settings.output (stem ++ ".txt")) doc.readable
    else return true
  else return false

/-- One document attributed and its reports written. -/
def attributeDocument (disk : Disk m) (settings : RunSettings)
    (document : Document × RawMentions) : m DocumentEnd := do
  match settings.attribute document with
  | .error .outOfRange | .error .overflow => return .broken
  | .error (.fault _) => return .failed
  | .ok (doc, summary) =>
    return if ← writeReports disk settings doc summary then .finished else .failed

/-- How a run over documents ends. -/
def outcomeOf (ends : List DocumentEnd) : Except ReadError Unit :=
  let failed := ends.count .failed
  if ends.contains .broken then .error (.invalid "Document worker panicked")
  else if failed = 0 then .ok ()
  else .error (.invalid s!"{failed} documents failed")

/-- The settings of a command, with everything read that it names. -/
def settingsOf (disk : Disk m) (command : AttributeCommand) : ExceptT ReadError m RunSettings := do
  let attribution ← within "Invalid sieve list" <| settled <|
    (AttributionSettings.ofLists command.quoteSieves command.speakerSieves).mapError
      ReadError.ofFault
  let scorer? ← within "Failed to load scorer model" <|
    match command.model? with
    | some path => do return some (← readScorerFile disk path)
    | none => return none
  let files ← (LexiconFiles.ofVariables disk : m LexiconFiles)
  let lexicon ← files.load disk
  return {
    lexicon
    preparation := { twins := if command.relaxedTwins then .relaxed else .strict }
    attribution, scorer?
    readable := command.readable
    output := command.output }

/-- The run that attributes documents. -/
def runAttribute (disk : Disk m) (command : AttributeCommand) : ExceptT ReadError m Unit := do
  let settings ← settingsOf disk command
  if ← disk.makeDirectory command.output then
    let documents ← loadAll disk command.columns command.inputs
    let ends ← (documents.mapM (attributeDocument disk settings) : m (List DocumentEnd))
    settled (outcomeOf ends)
  else
    throw ⟨[s!"Failed to create directory: {Text.quotedPath command.output}"], .system⟩

/-! ## Overviews -/

/-- Lines printed in order. -/
def sayAll (disk : Disk m) (lines : List String) : m Unit := lines.forM disk.say

/-- The overviews of documents printed, up to the first that cannot be prepared. -/
def printOverviews (disk : Disk m) (lexicon : Lexicon) :
    List (Document × RawMentions) → m Outcome
  | [] => return .success
  | (doc, raw) :: rest =>
    match doc.prepare lexicon {} raw with
    | (_, .error .outOfRange) | (_, .error .overflow) => return .broken
    | (_, .error (.fault fault)) =>
      return .failure ((ReadError.ofFault fault).within s!"Failed to preprocess {doc.id}")
    | (prepared, .ok summary) => do
      sayAll disk (prepared.overview summary)
      printOverviews disk lexicon rest

/-- The run that prints overviews. -/
def runAnalyze (disk : Disk m) (command : AnalyzeCommand) : ExceptT ReadError m Outcome := do
  let files ← (LexiconFiles.ofVariables disk : m LexiconFiles)
  let lexicon ← files.load disk
  let documents ← loadDocuments disk command.columns command.input
  (printOverviews disk lexicon documents : m Outcome)

/-! ## Command lines -/

/-- The usage of the program. -/
def usageLines : List String :=
  ["Usage: dialogist <COMMAND>",
    "",
    "Commands:",
    "  attribute  Attribute the quotations of one or more documents to speakers",
    "  analyze    Print the document model of a document without attributing quotes",
    "  help       Print this message"]

/-- The name and version of the program. -/
def versionLine : String := "dialogist 0.1.0"

/-- The run that a command line asks for. -/
def run (disk : Disk m) (arguments : List String) : m Outcome := do
  match readCommand? arguments with
  | none => return .usage
  | some .help => do sayAll disk usageLines; return .success
  | some .version => do disk.say versionLine; return .success
  | some (.attribute command) =>
    match ← (runAttribute disk command).run with
    | .ok () => return .success
    | .error e => return .failure e
  | some (.analyze command) =>
    match ← (runAnalyze disk command).run with
    | .ok outcome => return outcome
    | .error e => return .failure e

end Discourse.CommandLine
