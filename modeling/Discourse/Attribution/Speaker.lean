import Discourse.Attribution.Pattern
import Discourse.Attribution.Turn
/-!
# From mentions to speakers

The speaker of a quotation is a character.  A mention that is a name gives the character of that
name; any other mention is followed through the speaker pairs and its cluster.  Failing that, the
turns decide, then the names around the quotation, and at last the name met most often.
-/

namespace Discourse

/-- Whether a demanded gender rules a character out. -/
def Gender.excludes (demanded gender : Gender) : Bool :=
  demanded != .unknown && gender != .unknown && gender != demanded

namespace Scene

variable {S : Type}

/-- The name of the character that a text names. -/
def characterName? (sc : Scene S) (text : String) : Option String :=
  (sc.context.characterFor? text).map Character.name

/-- The mentions that may tell who a mention is: its recorded speakers, then the proper names in
its cluster. -/
def relatedMentions (sc : Scene S) (id : MentionId) : List Mention :=
  let members := ((sc.doc.clusterOf? id).map sc.doc.membersOf).getD []
  let others := (members.filter (· != id)).filterMap sc.doc.mention?
  (sc.doc.speakersOf id).filterMap sc.doc.mention? ++ others.filter fun m => m.type == .proper

/-- The character of the quotation's mention. -/
def deterministic? (sc : Scene S) (q : Quotation) : Option String :=
  match q.mention? with
  | none => none
  | some m =>
    if m.kind = .name then some ((sc.characterName? m.text).getD (Text.squeeze m.text))
    else (sc.doc.headedWithin? m.tokenBegin m.tokenEnd).bind fun id =>
      (sc.relatedMentions id).findSome? fun other => sc.characterName? other.text

/-- The gender that a pronoun as the quotation's mention demands. -/
def demandedGender (sc : Scene S) (q : Quotation) : Gender :=
  match q.mention? with
  | some m => if m.kind = .pronoun then sc.lex.genderOf (Text.lower m.text) else .unknown
  | none => .unknown

/-- The word for a relative that is the quotation's mention. -/
def familyWord? (sc : Scene S) (q : Quotation) : Option String :=
  (q.mention?.map fun m => Text.lower m.text).filter sc.lex.isFamilyWord

/-- What a name adds to the score of its character, in halves: two before the quotation or one
after it, two in the quotation's paragraph, and four right after the family word. -/
def nameScore (sc : Scene S) (q : Quotation) (m : CharacterMention) : Nat :=
  let paragraph? := sc.context.quoteParagraph? q
  let together := paragraph?.isSome && sc.context.paragraph? m.tokenBegin == paragraph?
  let introduced : Bool := match sc.familyWord? q with
    | none => false
    | some word => 0 < m.tokenBegin
      && ((sc.doc.token? (m.tokenBegin - 1)).map fun t => Text.equalFold t.word word).getD false
  (if m.precedes q then 2 else 1) + (if together then 2 else 0) + (if introduced then 4 else 0)

/-- The names nearby of characters that may be the speaker, with their characters and distances:
nobody who is addressed in the quotation or has the wrong gender. -/
def speakerCandidates (sc : Scene S) (q : Quotation) :
    List (Character × Nat × CharacterMention) :=
  let addressed := (sc.vocatives q).filterMap fun m => sc.characterName? m.text
  let demanded := sc.demandedGender q
  ((sc.nearby q).filter fun found => found.2.kind == .name).filterMap fun (distance, m) =>
    match sc.context.characterFor? m.text with
    | none => none
    | some c =>
      if addressed.contains c.name || demanded.excludes c.gender then none
      else some (c, distance, m)

/-- The scores by character, each with the distance of its nearest name. -/
def speakerScores (sc : Scene S) (q : Quotation) : Table String (Nat × Nat) :=
  (sc.speakerCandidates q).foldl
    (fun t (c, distance, m) =>
      let score := sc.nameScore q m
      match t.find? c.name with
      | none => t.insert c.name (score, distance)
      | some (total, nearest) => t.insert c.name (total + score, min nearest distance))
    {}

/-- The character with the highest score; of several such the nearest, and of these the last by
name. -/
def topSpeaker? (sc : Scene S) (q : Quotation) : Option String :=
  let beats := fun (a b : String × Nat × Nat) =>
    b.2.1 < a.2.1 || (a.2.1 == b.2.1 && a.2.2 ≤ b.2.2)
  (best? beats (sc.speakerScores q).entries).map Prod.fst

/-- The character named most often in the document, the first introduced of several such. -/
def majority? (sc : Scene S) : Option String :=
  let frequencies := sc.context.frequencies
  let counted := sc.context.characters.map fun c => (c.name, (frequencies.find? c.name).getD 0)
  (best? (fun a b => decide (b.2 < a.2)) (counted.filter fun entry => 0 < entry.2)).map
    Prod.fst

end Scene

end Discourse
