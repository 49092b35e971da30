import Discourse.Json.Lexer
/-!
# Reading JSON

A stack of open arrays and objects takes the tokens one by one.  What may come next is a part of
the state, so that the reader needs no look-ahead.
-/

namespace Discourse.Json

/-- An array or object that is still open, with the last element first. -/
inductive Frame
  | items (held : List Json)
  | fields (held : List (Option String × Json)) (name : Option String)
deriving Repr

/-- What may come next. -/
inductive Expected
  | value
  /-- A value, or the end of the array. -/
  | firstItem
  /-- A name, or the end of the object. -/
  | firstName
  | name
  | colon
  | commaOrEnd
  /-- Nothing more: the value is complete. -/
  | nothing (value : Json)
deriving Repr

/-- A JSON text read up to some token. -/
structure ReaderState where
  frames : List Frame := []
  expected : Expected := .value
deriving Repr

namespace ReaderState

/-- A complete value put where it belongs. -/
def give (frames : List Frame) (v : Json) : ReaderState :=
  match frames with
  | [] => ⟨[], .nothing v⟩
  | .items held :: rest => ⟨.items (v :: held) :: rest, .commaOrEnd⟩
  | .fields held name :: rest => ⟨.fields ((name, v) :: held) name :: rest, .commaOrEnd⟩

/-- The value that a token is, or the container that it opens. -/
def takeValue? (frames : List Frame) : Lexeme → Option ReaderState
  | .null => some (give frames .null)
  | .bool b => some (give frames (.bool b))
  | .num n => some (give frames (.num n))
  | .str s? => some (give frames (.str s?))
  | .openArray => some ⟨.items [] :: frames, .firstItem⟩
  | .openObject => some ⟨.fields [] none :: frames, .firstName⟩
  | _ => none

/-- The name of the next member of an object. -/
def takeName? (frames : List Frame) : Lexeme → Option ReaderState
  | .str name =>
    match frames with
    | .fields held _ :: rest => some ⟨.fields held name :: rest, .colon⟩
    | _ => none
  | _ => none

/-- The end of the innermost container. -/
def close? (frames : List Frame) : Lexeme → Option ReaderState
  | .closeArray =>
    match frames with
    | .items held :: rest => some (give rest (.arr held.reverse))
    | _ => none
  | .closeObject =>
    match frames with
    | .fields held _ :: rest => some (give rest (.obj held.reverse))
    | _ => none
  | _ => none

/-- One more token. -/
def step (st : ReaderState) (token : Lexeme) : Option ReaderState :=
  match st.expected with
  | .value => takeValue? st.frames token
  | .firstItem => close? st.frames token <|> takeValue? st.frames token
  | .firstName => close? st.frames token <|> takeName? st.frames token
  | .name => takeName? st.frames token
  | .colon => if token = .colon then some { st with expected := .value } else none
  | .commaOrEnd =>
    if token = .comma then
      match st.frames with
      | .items _ :: _ => some { st with expected := .value }
      | .fields _ _ :: _ => some { st with expected := .name }
      | [] => none
    else close? st.frames token
  | .nothing _ => none

end ReaderState

/-- The value that a text writes. -/
def parse? (text : String) : Option Json := do
  let tokens ← lexemes? text
  let final ← tokens.foldlM ReaderState.step {}
  match final.expected with
  | .nothing v => some v
  | _ => none

end Discourse.Json
