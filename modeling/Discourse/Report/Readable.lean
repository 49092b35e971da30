import Discourse.Report.Basic
import Discourse.Report.Wrapped
/-!
# Reports for readers

A readable report has a heading and one block per quotation: who speaks and how that was found,
and below it the quotation, wrapped.
-/

namespace Discourse

/-- A genre in words. -/
def Genre.label : Genre → String
  | .conversation => "Conversation"
  | .article => "Article"

/-- The width of a line of quoted text. -/
def quotedWidth : Nat := 80

/-- The line above a quotation. -/
def Quotation.headline (q : Quotation) : String :=
  let speaker := (q.speaker?.map QuoteSpeaker.name).getD "UNKNOWN"
  let mention := match q.mention? with
    | some m => s!" via \"{m.text}\" ({m.sieve})"
    | none => ""
  let canonical := match q.canonical? with
    | some span => s!" = {span.text}"
    | none => ""
  s!"[{q.index}] {speaker}{mention}{canonical}:"

/-- The block of a quotation. -/
def Quotation.block (q : Quotation) : String :=
  q.headline ++ "\n" ++ Text.wrap quotedWidth q.text ++ "\n\n"

namespace Document

/-- The readable report of a document. -/
def readable (doc : Document) : String :=
  s!"# {doc.id} ({doc.genre.label})\n\n" ++ String.join (doc.quotes.map Quotation.block)

end Document

end Discourse
