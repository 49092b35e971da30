import Discourse.Text.Quoted
/-!
# What can be wrong with a document

A `Fault` is a defect of the data that ends the work on its document.  `Stop` adds the two other
ways to end: a position that the data names and the document does not have, and a sum of positions
that is too large.  A `ReadError` is a fault, or a defect of the text being read, inside the
descriptions of what was being read.
-/

namespace Discourse

/-- A defect of a document's data. -/
inductive Fault
  /-- A gold mention names an antecedent that is no gold mention. -/
  | missingGoldAntecedent (antecedent : Nat)
  /-- Following the antecedents of a gold mention leads back to it. -/
  | cyclicGoldChain (mention : Nat)
  /-- A gold mention belongs to no gold cluster. -/
  | missingGoldCluster (mention : Nat)
  /-- The brackets of a column do not match. -/
  | unbalancedLabelledSpan (column line : Nat)
  /-- A bracketed text is no tree. -/
  | malformedTree (reason : String)
  /-- A chunk tag that is unknown or continues nothing. -/
  | illegalChunkTag (index : Nat) (tag : String)
  /-- No sieve has this key. -/
  | unknownSieve (name : String)
  /-- A mention's head is no token of its sentence. -/
  | missingHeadLeaf (mention head : Nat)
deriving DecidableEq, Repr

/-- The text of a fault. -/
def Fault.message : Fault → String
  | .missingGoldAntecedent antecedent => s!"cannot find gold mention with id {antecedent}"
  | .cyclicGoldChain mention => s!"gold antecedent chain through mention {mention} is cyclic"
  | .missingGoldCluster mention => s!"gold mention {mention} has no gold cluster id"
  | .unbalancedLabelledSpan column line =>
    s!"unbalanced labelled span in column {column} at line {line}"
  | .malformedTree reason => s!"malformed parse tree: {reason}"
  | .illegalChunkTag index tag => s!"illegal chunk tag {Text.quoted tag} at token {index}"
  | .unknownSieve name => s!"unknown sieve {Text.quoted name}"
  | .missingHeadLeaf mention head =>
    s!"mention {mention} has head index {head} outside its sentence"

/-- Why the work on a document ended early. -/
inductive Stop
  | fault (fault : Fault)
  /-- The data names a token, leaf or entity beyond the end. -/
  | outOfRange
  /-- Two positions that the data names add up to more than the largest word. -/
  | overflow
deriving DecidableEq, Repr

/-- The innermost reason why a text could not be read. -/
inductive ReadCause
  | fault (fault : Fault)
  /-- The text is not the JSON that was expected. -/
  | json
  /-- A number was expected. -/
  | number
  /-- The file system refused. -/
  | system
  /-- Another rule of the format is broken; the text says which. -/
  | invalid (text : String)
deriving DecidableEq, Repr

/-- A reason within the descriptions of what was being read, outermost first. -/
structure ReadError where
  contexts : List String
  cause : ReadCause
deriving DecidableEq, Repr

namespace ReadError

/-- The error of a fault. -/
def ofFault (fault : Fault) : ReadError := ⟨[], .fault fault⟩

/-- The error of a broken rule. -/
def invalid (text : String) : ReadError := ⟨[], .invalid text⟩

/-- The error seen from one step further out. -/
def within (context : String) (e : ReadError) : ReadError :=
  { e with contexts := context :: e.contexts }

/-- The text of the innermost reason, where it is this library's own. -/
def causeText? (e : ReadError) : Option String :=
  match e.cause with
  | .fault fault => some fault.message
  | .invalid text => some text
  | .json | .number | .system => none

/-- All descriptions, outermost first, with the innermost reason last. -/
def chain (e : ReadError) : List String := e.contexts ++ e.causeText?.toList

/-- The whole text of the error. -/
def message (e : ReadError) : String := ": ".intercalate e.chain

end ReadError

/-- A result of reading, described from one step further out if it failed. -/
def describing {α : Type} (context : String) : Except ReadError α → Except ReadError α
  | .ok a => .ok a
  | .error e => .error (e.within context)

/-- Two computations in a row succeed if the first does and the second does on its result. -/
theorem bind_eq_ok_iff {ε α β : Type} {x : Except ε α} {f : α → Except ε β} {b : β} :
    x >>= f = .ok b ↔ ∃ a, x = .ok a ∧ f a = .ok b := by
  cases x with
  | error e => simp [bind, Except.bind]
  | ok a => simp [bind, Except.bind]

/-- A computation with its result changed succeeds if the computation does. -/
theorem map_eq_ok_iff {ε α β : Type} {x : Except ε α} {f : α → β} {b : β} :
    x.map f = .ok b ↔ ∃ a, x = .ok a ∧ f a = b := by
  cases x with
  | error e => simp [Except.map]
  | ok a => simp [Except.map]

theorem map_eq_error_iff {ε α β : Type} {x : Except ε α} {f : α → β} {e : ε} :
    x.map f = .error e ↔ x = .error e := by
  cases x with
  | error e' => simp [Except.map]
  | ok a => simp [Except.map]

end Discourse
