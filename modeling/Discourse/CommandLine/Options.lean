import Discourse.Text.Blank
/-!
# Options on a command line

Options are read from left to right.  A short option is a hyphen and a letter, and letters without
values may share a hyphen; a long option is two hyphens and a name.  A value is the next argument,
or is joined to the option, after an equals sign or, for a short option, at once.  The first thing
wrong ends the reading, and so does a request for help.
-/

namespace Discourse.CommandLine

/-- How an option is given. -/
inductive OptionKind
  /-- At most once, without a value. -/
  | flag
  /-- At most once, with a value. -/
  | single
  /-- As often as wanted, each time with a value. -/
  | repeated
deriving DecidableEq, Repr

/-- One option of a command. -/
structure OptionRule where
  name : String
  letter? : Option Char := none
  kind : OptionKind := .single
  /-- Whether the value names a file, and so may not be empty. -/
  isPath : Bool := false
deriving DecidableEq, Repr

/-- The options given so far, with their values; a flag has an empty value. -/
abbrev Given := List (String × String)

/-- The values given for an option, in order. -/
def Given.values (given : Given) (name : String) : List String :=
  (given.filter fun entry => entry.1 == name).map Prod.snd

/-- Whether an option is given. -/
def Given.has (given : Given) (name : String) : Bool := given.any fun entry => entry.1 == name

/-- What reading came to. -/
inductive OptionReading
  | wrong
  /-- Help was asked for before anything was wrong. -/
  | help
  | given (options : Given)
deriving DecidableEq, Repr

/-- Options read up to some argument: those given, and the one that waits for its value. -/
structure OptionState where
  given : Given := []
  waiting? : Option OptionRule := none
deriving Repr

/-- The state after one argument, or the end of the reading. -/
inductive OptionStep
  | wrong
  | help
  | on (state : OptionState)
deriving Repr

/-- An option with its value taken into account. -/
def accept (given : Given) (rule : OptionRule) (value : String) : OptionStep :=
  if rule.isPath && value.isEmpty then .wrong
  else if rule.kind != .repeated && given.has rule.name then .wrong
  else .on { given := given ++ [(rule.name, value)] }

/-- A long option, given the text after its hyphens. -/
def readLong (rules : List OptionRule) (given : Given) (text : String) : OptionStep :=
  let (name, value?) := match Text.cutAt? '=' text with
    | some (name, value) => (name, some value)
    | none => (text, none)
  if name = "help" then (if value?.isSome then .wrong else .help)
  else match rules.find? fun rule => rule.name == name with
    | none => .wrong
    | some rule =>
      match rule.kind, value? with
      | .flag, some _ => .wrong
      | .flag, none => accept given rule ""
      | _, some value => accept given rule value
      | _, none => .on { given, waiting? := some rule }

/-- A value that is joined to the letter of a short option, without its equals sign. -/
def joinedValue (text : List Char) : String :=
  match text with
  | '=' :: rest => String.ofList rest
  | _ => String.ofList text

/-- The short options of one argument, given its letters. -/
def readLetters (rules : List OptionRule) (given : Given) : List Char → OptionStep
  | [] => .on { given }
  | letter :: rest =>
    match rules.find? fun rule => rule.letter? == some letter with
    | none => if letter = 'h' then .help else .wrong
    | some rule =>
      match rule.kind with
      | .flag =>
        match accept given rule "" with
        | .on state => readLetters rules state.given rest
        | stopped => stopped
      | _ =>
        if rest.isEmpty then .on { given, waiting? := some rule }
        else accept given rule (joinedValue rest)

/-- One argument. -/
def readArgument (rules : List OptionRule) (state : OptionState) (argument : String) :
    OptionStep :=
  match argument.toList, state.waiting? with
  | '-' :: c :: rest, none =>
    if c = '-' then readLong rules state.given (String.ofList rest)
    else readLetters rules state.given (c :: rest)
  | '-' :: _ :: _, some _ => .wrong
  | _, some rule => accept state.given rule argument
  | _, none => .wrong

/-- A row of arguments.  Two hyphens end the options, and nothing may follow them. -/
def readOptionsFrom (rules : List OptionRule) (state : OptionState) :
    List String → OptionReading
  | [] => if state.waiting?.isSome then .wrong else .given state.given
  | argument :: rest =>
    if argument = "--" then
      if state.waiting?.isSome || !rest.isEmpty then .wrong else .given state.given
    else match readArgument rules state argument with
      | .wrong => .wrong
      | .help => .help
      | .on state => readOptionsFrom rules state rest

/-- The options that a row of arguments gives. -/
def readOptions (rules : List OptionRule) (arguments : List String) : OptionReading :=
  readOptionsFrom rules {} arguments

end Discourse.CommandLine
