import Discourse.Json.Decode
import Discourse.Source.Annotated
/-!
# Annotated texts as JSON

Every record of an annotated text is a JSON record.  Members that a taggers' chain may not have
produced may be missing or null; the flags and lists with a natural default may only be missing.
-/

namespace Discourse

open Json

/-- The token that a JSON value describes. -/
def Token.ofJson? (value : Json) : Option Token := do
  let members ← value.members?
    ["word", "lemma", "pos", "ner", "begin_char", "end_char", "speaker", "utterance"]
  let word ← required? members "word" asString?
  let baseForm? ← optional? members "lemma" asString?
  let pos ← required? members "pos" asString?
  let ner? ← optional? members "ner" asString?
  let beginChar? ← optional? members "begin_char" asNat?
  let endChar? ← optional? members "end_char" asNat?
  let speaker? ← optional? members "speaker" asString?
  let utterance? ← optional? members "utterance" asNat?
  let bare := Token.ofWord word pos
  return { bare with
    baseForm := baseForm?.getD bare.baseForm
    ner := ner?.getD bare.ner
    beginChar?, endChar?, speaker?, utterance? }

/-- The dependency that a JSON value describes. -/
def Dependency.ofJson? (value : Json) : Option Dependency := do
  let members ← value.members? ["governor", "dependent", "relation"]
  let governor? ← optional? members "governor" asNat?
  let dependent ← required? members "dependent" asNat?
  let relation ← required? members "relation" asString?
  return { governor?, dependent, relation }

/-- The dependency graph that a list of dependencies describes. -/
def DependencyGraph.ofJson? (value : Json) : Option DependencyGraph :=
  (asList? Dependency.ofJson? value).map DependencyGraph.mk

/-- The span that a JSON value describes. -/
def MentionSpan.ofJson? (value : Json) : Option MentionSpan := do
  let members ← value.members? ["start", "end", "head", "type", "gold_cluster", "original_ref"]
  let start ← required? members "start" asNat?
  let stop ← required? members "end" asNat?
  let head? ← optional? members "head" asNat?
  let type? ← optional? members "type" (asWord? MentionType.named?)
  let goldCluster? ← optional? members "gold_cluster" asNat?
  let antecedent? ← optional? members "original_ref" asNat?
  return { start, stop, head?, type?, goldCluster?, antecedent? }

/-- The sentence that a JSON value describes. -/
def AnnotatedSentence.ofJson? (value : Json) : Option AnnotatedSentence := do
  let members ← value.members?
    ["tokens", "parse", "basic_dependencies", "enhanced_dependencies", "chunk_tags", "mentions",
      "gold_mentions"]
  let tokens ← required? members "tokens" (asList? Token.ofJson?)
  let bracketed? ← optional? members "parse" asString?
  let basic? ← optional? members "basic_dependencies" DependencyGraph.ofJson?
  let enhanced? ← optional? members "enhanced_dependencies" DependencyGraph.ofJson?
  let chunkTags ← defaulted? members "chunk_tags" [] (asList? asString?)
  let predicted ← defaulted? members "mentions" [] (asList? MentionSpan.ofJson?)
  let gold? ← optional? members "gold_mentions" (asList? MentionSpan.ofJson?)
  return { tokens, bracketed?, basic?, enhanced?, chunkTags, predicted, gold? }

/-- The entity mention that a JSON value describes. -/
def AnnotatedEntity.ofJson? (value : Json) : Option AnnotatedEntity := do
  let members ← value.members? ["token_begin", "token_end", "entity_type", "canonical"]
  let tokenBegin ← required? members "token_begin" asNat?
  let tokenEnd ← required? members "token_end" asNat?
  let entityType ← required? members "entity_type" asString?
  let canonical? ← optional? members "canonical" asNat?
  return { tokenBegin, tokenEnd, entityType, canonical? }

/-- The range of tokens that a JSON value describes. -/
def rangeOfJson? (value : Json) : Option (Nat × Nat) := do
  let members ← value.members? ["token_begin", "token_end"]
  let start ← required? members "token_begin" asNat?
  let stop ← required? members "token_end" asNat?
  return (start, stop)

namespace AnnotatedText

/-- The annotated text that a JSON value describes. -/
def ofJson? (value : Json) : Option AnnotatedText := do
  let members ← value.members?
    ["doc_id", "use_marked_discourse", "conll", "sentences", "entity_mentions", "quotes"]
  let id ← required? members "doc_id" asString?
  let marked ← defaulted? members "use_marked_discourse" false asBool?
  let fromColumns ← defaulted? members "conll" false asBool?
  let sentences ← required? members "sentences" (asList? AnnotatedSentence.ofJson?)
  let entities ← defaulted? members "entity_mentions" [] (asList? AnnotatedEntity.ofJson?)
  let quotes ← defaulted? members "quotes" [] (asList? rangeOfJson?)
  return { id, marked, fromColumns, sentences, entities, quotes }

/-- The document that a JSON value describes, if it describes one. -/
def documentOfValue (value? : Option Json) : Except ReadError (Document × RawMentions) :=
  match value?.bind ofJson? with
  | none => .error ⟨["Failed to parse document JSON"], .json⟩
  | some text => text.build

/-- The document that a JSON text describes. -/
def readDocument (text : String) : Except ReadError (Document × RawMentions) :=
  documentOfValue (Json.parse? text)

end AnnotatedText

end Discourse
