import Discourse.Attribution.Scene
import Discourse.Json.Decode
/-!
# Written scorers

A scorer is written as a JSON record of its bias and a table of weights, which may be left out.
-/

namespace Discourse

/-- The scorer that a JSON value describes. -/
def Scorer.ofJson? (value : Json) : Option Scorer := do
  let members ← value.members? ["bias", "weights"]
  let bias ← Json.required? members "bias" Json.asFloat?
  let weights ← Json.defaulted? members "weights" [] (Json.asTable? Json.asFloat?)
  return { bias, weights := Table.ofList weights }

/-- The scorer that a text describes. -/
def Scorer.read? (text : String) : Option Scorer := (Json.parse? text).bind Scorer.ofJson?

end Discourse
