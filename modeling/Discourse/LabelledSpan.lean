import Discourse.Fault
import Discourse.Offset
import Discourse.Text.Blank
/-!
# Columns of labelled brackets

A column gives one value per token.  An opening bracket with a label starts a span at its token
and a closing bracket ends one, so that several spans may start, end and nest at one token.  A
label reaches to the next bracket or bar of its value.  In a column that names labels at both ends
a closing bracket ends the innermost open span of its label; in the other kind it ends the
innermost open span, and stars are only there to fill space.
-/

namespace Discourse

/-- A labelled span of tokens. -/
structure LabelledSpan where
  start : Nat
  /-- One past the last token. -/
  stop : Nat
  label : String
deriving DecidableEq, Repr, Inhabited

/-- The two kinds of column. -/
structure ColumnStyle where
  /-- The value of a token with no bracket. -/
  marker : String
  /-- Whether a closing bracket names the label of its span. -/
  closesByLabel : Bool
deriving DecidableEq, Repr

/-- A label as it is kept: without stars, where they are the marker. -/
def ColumnStyle.clean (style : ColumnStyle) (label : List Char) : String :=
  String.ofList (if style.marker == "*" then label.filter (· != '*') else label)

/-- Whether a character ends a label. -/
def isDelimiter (c : Char) : Bool := c == '(' || c == ')' || c == '|'

/-- A column read up to some character. -/
structure ColumnState where
  /-- The spans that are open, the innermost first, with their first tokens. -/
  pending : List (Nat × String) := []
  /-- The spans that are closed, the last one first. -/
  done : List LabelledSpan := []
deriving DecidableEq, Repr

namespace ColumnState

/-- The state with the innermost open span that satisfies `p` closed at a token. -/
def close? (st : ColumnState) (token : Nat) (p : Nat × String → Bool) : Option ColumnState :=
  match st.pending.find? p with
  | none => none
  | some (start, label) =>
    some ⟨st.pending.eraseP p, ⟨start, token + 1, label⟩ :: st.done⟩

/-- The state after the rest of a value.  `label` holds what has been read since the last
delimiter, the last character first, and `opens` tells whether that delimiter opened a span. -/
def readValue (style : ColumnStyle) (token : Nat) (opens : Bool) (label : List Char)
    (st : ColumnState) : List Char → Option ColumnState
  | [] =>
    if opens then some { st with pending := (token, style.clean label.reverse) :: st.pending }
    else some st
  | c :: rest =>
    if !isDelimiter c then readValue style token opens (c :: label) st rest
    else
      let st :=
        if opens then { st with pending := (token, style.clean label.reverse) :: st.pending }
        else st
      if c = ')' then
        let named := String.ofList label.reverse
        match st.close? token fun span => !style.closesByLabel || span.2 == named with
        | some st => readValue style token false [] st rest
        | none => none
      else readValue style token (c == '(') [] st rest

/-- The state after the values from a token on, or the token at which a bracket closes nothing. -/
def readColumn (style : ColumnStyle) (token : Nat) (st : ColumnState) :
    List String → Except Nat ColumnState
  | [] => .ok st
  | value :: rest =>
    if value = style.marker then readColumn style (token + 1) st rest
    else match readValue style token false [] st value.toList with
      | some st => readColumn style (token + 1) st rest
      | none => .error token

end ColumnState

/-- The spans of a column, in the order in which they end.  `column` and `line` say where the
column stands, for the fault of brackets that do not match. -/
def labelledSpans (style : ColumnStyle) (column line : Nat) (values : List String) :
    Except Fault (List LabelledSpan) :=
  match ColumnState.readColumn style 0 {} values with
  | .error token => .error (.unbalancedLabelledSpan column (line + token))
  | .ok st =>
    if st.pending.isEmpty then .ok st.done.reverse
    else .error (.unbalancedLabelledSpan column line)

end Discourse
