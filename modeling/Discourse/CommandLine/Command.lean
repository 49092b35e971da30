import Discourse.Attribution.Sieve
import Discourse.CommandLine.Options
/-!
# Commands

There are two commands: one attributes the quotations of documents and writes reports, the other
prints an overview of a document.
-/

namespace Discourse.CommandLine

/-- What the attribution of documents is told. -/
structure AttributeCommand where
  inputs : List String
  output : String
  /-- Whether readable reports are written too. -/
  readable : Bool
  /-- Whether the inputs are column files. -/
  columns : Bool
  quoteSieves : String
  speakerSieves : String
  model? : Option String
  relaxedTwins : Bool
deriving DecidableEq, Repr, Inhabited

/-- What the overview of a document is told. -/
structure AnalyzeCommand where
  input : String
  /-- Whether the input is a column file. -/
  columns : Bool
deriving DecidableEq, Repr, Inhabited

/-- What a command line asks for. -/
inductive Command
  | attribute (command : AttributeCommand)
  | analyze (command : AnalyzeCommand)
  | help
  | version
deriving DecidableEq, Repr, Inhabited

/-- The options of the attribution. -/
def attributeRules : List OptionRule :=
  [{ name := "input", letter? := some 'i', kind := .repeated, isPath := true },
    { name := "output", letter? := some 'o', isPath := true },
    { name := "human-readable", kind := .flag },
    { name := "conll", kind := .flag },
    { name := "qm-sieves" },
    { name := "ms-sieves" },
    { name := "model", isPath := true },
    { name := "relaxed-twins", kind := .flag },
    { name := "verbose", letter? := some 'v', kind := .flag }]

/-- The options of the overview. -/
def analyzeRules : List OptionRule :=
  [{ name := "input", letter? := some 'i', isPath := true },
    { name := "conll", kind := .flag },
    { name := "verbose", letter? := some 'v', kind := .flag }]

/-- The attribution that options ask for; an input and the output are needed. -/
def attributeOf? (given : Given) : Option Command :=
  match given.values "input", (given.values "output").head? with
  | [], _ | _, none => none
  | inputs, some output =>
    some <| .attribute
      { inputs, output
        readable := given.has "human-readable"
        columns := given.has "conll"
        quoteSieves :=
          ((given.values "qm-sieves").head?).getD AttributionSettings.defaultQuoteKeys
        speakerSieves :=
          ((given.values "ms-sieves").head?).getD AttributionSettings.defaultSpeakerKeys
        model? := (given.values "model").head?
        relaxedTwins := given.has "relaxed-twins" }

/-- The overview that options ask for; an input is needed. -/
def analyzeOf? (given : Given) : Option Command :=
  (given.values "input").head?.map fun input =>
    .analyze { input, columns := given.has "conll" }

/-- A command with its options read. -/
def commandOf? (rules : List OptionRule) (build? : Given → Option Command)
    (arguments : List String) : Option Command :=
  match readOptions rules arguments with
  | .wrong => none
  | .help => some .help
  | .given given => build? given

/-- Whether arguments name one command to be helped with, or none. -/
def namesTopic (arguments : List String) : Bool :=
  match arguments with
  | [] => true
  | [topic] => topic == "attribute" || topic == "analyze" || topic == "help"
  | _ => false

/-- What stands in place of a command: a request for help or for the version, by its letters
where it has one hyphen. -/
def requestOf? (argument : String) : Option Command :=
  if argument = "--help" then some .help
  else if argument = "--version" then some .version
  else match argument.toList with
    | '-' :: 'h' :: _ => some .help
    | '-' :: 'V' :: _ => some .version
    | _ => none

/-- What a command line asks for; none if it is wrong. -/
def readCommand? : List String → Option Command
  | "attribute" :: rest => commandOf? attributeRules attributeOf? rest
  | "analyze" :: rest => commandOf? analyzeRules analyzeOf? rest
  | "help" :: rest => if namesTopic rest then some .help else none
  | first :: _ => requestOf? first
  | [] => none

end Discourse.CommandLine
