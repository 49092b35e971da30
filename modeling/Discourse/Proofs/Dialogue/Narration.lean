import Discourse.Proofs.Dialogue.Speaking
/-!
# What narration names

The search for the speaker of a quotation asks verbs for their subjects: in the sentence before the
quotation, in the sentence after it and, at the edges, in their neighbours, each time the reporting
verbs from left to right, and behind each of them the chain of verbs above it.  These are one row of
verbs (`verbsAround`), and the search is the walk along it to the first verb with a subject
(`quotationSpeaker?_eq`).  The subject itself is a place in the text (`quotationSubject?`); what is
handed on is the text that stands for it (`subjectText?`).

Several quotations can begin in one utterance, and then the last of them decides
(`find?_findSpeakersInArticle`).  The speakers written at the tokens are never read
(`ReadsAlike`).
-/

namespace Discourse

section FindSome

variable {α β γ : Type} {f : α → Option β} {g : β → Option γ}

/-- A walk to the first answer, where every answer can be given in other words. -/
theorem findSome?_bind (worded : ∀ x b, f x = some b → (g b).isSome = true) (xs : List α) :
    xs.findSome? (fun x => (f x).bind g) = (xs.findSome? f).bind g := by
  induction xs with
  | nil => rfl
  | cons x rest ih =>
    rw [List.findSome?_cons, List.findSome?_cons]
    cases answer : f x with
    | none => exact ih
    | some b =>
      obtain ⟨c, words⟩ := Option.isSome_iff_exists.mp (worded x b answer)
      rw [Option.bind_some, words]

theorem findSome?_flatMap (h : α → List β) (p : β → Option γ) (xs : List α) :
    (xs.flatMap h).findSome? p = xs.findSome? fun x => (h x).findSome? p := by
  induction xs with
  | nil => rfl
  | cons x rest ih =>
    rw [List.flatMap_cons, List.findSome?_append, ih, List.findSome?_cons]
    cases (h x).findSome? p <;> rfl

end FindSome

/-- Of a row of values for keys, some of which fail, the last one of a key is found. -/
theorem Table.find?_foldl_insert_filterMap {α β κ : Type} [KeyOrder κ] [DecidableEq κ]
    (key : α → κ) (value? : α → Option β) (xs : List α) (t : Table κ β) (k : κ) :
    ((xs.filterMap fun x => (value? x).map fun v => (key x, v)).foldl
        (fun t entry => t.insert entry.1 entry.2) t).find? k =
      ((xs.reverse.filter fun x => key x == k).findSome? value?).or (t.find? k) := by
  induction xs generalizing t with
  | nil => rfl
  | cons x rest ih =>
    rw [List.reverse_cons, List.filter_append, List.findSome?_append, List.filterMap_cons,
      Option.or_assoc]
    cases valued : value? x with
    | none =>
      have none : ([x].filter fun x => key x == k).findSome? value? = Option.none := by
        rw [List.filter_cons]
        split <;> simp [valued]
      rw [none, Option.none_or]
      exact ih t
    | some v =>
      rw [Option.map_some, List.foldl_cons, ih, Table.find?_insert]
      congr 1
      by_cases same : key x = k
      · simp [same, valued]
      · simp [same, Ne.symm same]

/-- A token without its speaker. -/
def Token.unspoken (t : Token) : Token := { t with speaker? := none }

namespace Document

variable {doc d : Document}

/-! ## The row of verbs -/

/-- The text by which the token at a position is handed on as a speaker: the id of the mention headed
there, or else its word. -/
def subjectText? (doc : Document) (p : Position) : Option String :=
  match doc.headed.find? p with
  | some id => some (toString id)
  | none => (doc.tokenAt? p.1 p.2).map Token.word

/-- The position of the subject of a verb, if it can be handed on. -/
def subjectOfVerb? (doc : Document) (verb : Position) : Option Position := do
  let s ← doc.sentences[verb.1]?
  let graph ← s.dependencies?
  let subject ← graph.child? verb.2 "nsubj"
  if (doc.subjectText? (verb.1, subject)).isSome then some (verb.1, subject) else none

/-- The verbs asked at a token of a sentence: itself, if it is a reporting verb, and the chain of
verbs above it. -/
def verbsAt (lex : Lexicon) (s : Sentence) (graph : DependencyGraph) (place : Nat) : List Nat :=
  match s.tokens[place]? with
  | none => []
  | some t =>
    if isNarratedReport lex t then
      place :: (graph.pathToRoot place).takeWhile
        fun ancestor => ((s.tokens[ancestor]?).map isVerbal).getD false
    else []

/-- The verbs asked in a sentence from `start` up to `stop`. -/
def verbsBetween (doc : Document) (lex : Lexicon) (sentence start stop : Nat) : List Position :=
  match doc.sentences[sentence]? with
  | none => []
  | some s =>
    match s.dependencies? with
    | none => []
    | some graph =>
      ((List.range' start (min stop s.length - start)).flatMap (verbsAt lex s graph)).map
        fun verb => (sentence, verb)

/-- The verbs asked for the speaker of a stretch of quoted tokens, in the order in which they are
asked. -/
def verbsAround (doc : Document) (lex : Lexicon) (st : Stretch) : List Position :=
  doc.verbsBetween lex st.first.1 0 st.first.2 ++
    (doc.verbsBetween lex st.after.1 st.after.2 (doc.sentenceLength st.after.1) ++
      ((if st.first.2 ≤ 1 ∧ 0 < st.first.1 then
          doc.verbsBetween lex (st.first.1 - 1) 0 (doc.sentenceLength (st.first.1 - 1))
        else []) ++
        (if doc.sentenceLength st.after.1 ≤ st.after.2 + 2 ∧
            st.after.1 + 1 < doc.sentences.length then
          doc.verbsBetween lex (st.after.1 + 1) 0 (doc.sentenceLength (st.after.1 + 1))
        else [])))

/-- The position of the subject that narration names for a stretch of quoted tokens. -/
def quotationSubject? (doc : Document) (lex : Lexicon) (st : Stretch) : Option Position :=
  (doc.verbsAround lex st).findSome? doc.subjectOfVerb?

/-- The position of the subject that narration names for an utterance: that of the last stretch that
begins in it and has one. -/
def narratedSubject? (doc : Document) (lex : Lexicon) (utterance : Nat) : Option Position :=
  (doc.stretches.reverse.filter fun st => st.utterance == utterance).findSome?
    (doc.quotationSubject? lex)

theorem isSome_subjectText? {verb p : Position} (asked : doc.subjectOfVerb? verb = some p) :
    (doc.subjectText? p).isSome = true := by
  simp only [subjectOfVerb?, Option.bind_eq_bind, Option.bind_eq_some_iff] at asked
  obtain ⟨s, -, graph, -, subject, -, kept⟩ := asked
  obtain ⟨text, same⟩ := Option.ite_none_right_eq_some.mp kept
  cases same
  exact text

theorem isSome_text_quotationSubject? {lex : Lexicon} {st : Stretch} {p : Position}
    (found : doc.quotationSubject? lex st = some p) : (doc.subjectText? p).isSome = true := by
  obtain ⟨verb, -, asked⟩ := List.exists_of_findSome?_eq_some found
  exact isSome_subjectText? asked

/-! ## The search is a walk along it -/

theorem subjectOf?_eq {s : Sentence} {graph : DependencyGraph} {sentence : Nat}
    (here : doc.sentences[sentence]? = some s) (parsed : s.dependencies? = some graph)
    (verb : Nat) :
    doc.subjectOf? graph sentence verb =
      (doc.subjectOfVerb? (sentence, verb)).bind doc.subjectText? := by
  simp only [subjectOf?, subjectOfVerb?, here, parsed, Option.bind_eq_bind, Option.bind_some]
  cases graph.child? verb "nsubj" with
  | none => rfl
  | some subject =>
    rw [Option.bind_some, Option.bind_some]
    change doc.subjectText? (sentence, subject) = _
    split
    next => rfl
    next silent => exact Option.not_isSome_iff_eq_none.mp silent

theorem subjectAbove?_eq (s : Sentence) (graph : DependencyGraph) (sentence : Nat)
    (path : List Nat) :
    doc.subjectAbove? s graph sentence path =
      (path.takeWhile fun ancestor => ((s.tokens[ancestor]?).map isVerbal).getD false).findSome?
        (doc.subjectOf? graph sentence) := by
  induction path with
  | nil => rfl
  | cons ancestor rest ih =>
    rw [subjectAbove?, List.takeWhile_cons]
    split
    next =>
      rw [List.findSome?_cons, ih]
      cases doc.subjectOf? graph sentence ancestor <;> rfl
    next => rfl

theorem reportedBy?_eq (lex : Lexicon) (s : Sentence) (graph : DependencyGraph)
    (sentence place : Nat) :
    doc.reportedBy? lex s graph sentence place =
      (verbsAt lex s graph place).findSome? (doc.subjectOf? graph sentence) := by
  rw [reportedBy?, verbsAt]
  cases s.tokens[place]? with
  | none => rfl
  | some t =>
    dsimp only
    split
    next =>
      rw [List.findSome?_cons, subjectAbove?_eq]
      cases doc.subjectOf? graph sentence place <;> rfl
    next => rfl

theorem findSpeaker?_eq (doc : Document) (lex : Lexicon) (sentence start stop : Nat) :
    doc.findSpeaker? lex sentence start stop =
      ((doc.verbsBetween lex sentence start stop).findSome? doc.subjectOfVerb?).bind
        doc.subjectText? := by
  rw [findSpeaker?, verbsBetween]
  cases here : doc.sentences[sentence]? with
  | none => rfl
  | some s =>
    dsimp only [Option.bind_eq_bind, Option.bind_some]
    cases parsed : s.dependencies? with
    | none => rfl
    | some graph =>
      have asked : doc.reportedBy? lex s graph sentence = fun place =>
          (verbsAt lex s graph place).findSome?
            fun verb => (doc.subjectOfVerb? (sentence, verb)).bind doc.subjectText? := by
        funext place
        rw [reportedBy?_eq, funext (subjectOf?_eq here parsed)]
      rw [Option.bind_some, asked, ← findSome?_bind fun _ _ => isSome_subjectText?,
        List.findSome?_map, findSome?_flatMap]
      rfl

/-- The search hands on the text of the first subject along the row of verbs. -/
theorem quotationSpeaker?_eq (doc : Document) (lex : Lexicon) (st : Stretch) :
    doc.quotationSpeaker? lex st.first st.after =
      (doc.quotationSubject? lex st).bind doc.subjectText? := by
  have worded : ∀ verb p, doc.subjectOfVerb? verb = some p → (doc.subjectText? p).isSome = true :=
    fun _ _ => isSome_subjectText?
  have edge (c : Prop) [Decidable c] (verbs : List Position) :
      (if c then verbs else []).findSome? (fun verb =>
        (doc.subjectOfVerb? verb).bind doc.subjectText?) =
      if c then (verbs.findSome? doc.subjectOfVerb?).bind doc.subjectText? else none := by
    split
    · exact findSome?_bind worded verbs
    · rfl
  rw [quotationSubject?, ← findSome?_bind worded, verbsAround, List.findSome?_append,
    List.findSome?_append, List.findSome?_append, findSome?_bind worded, findSome?_bind worded,
    edge, edge, quotationSpeaker?]
  simp only [findSpeaker?_eq, Option.orElse_eq_or, Option.orElse_eq_orElse]

/-! ## The last quotation of an utterance -/

theorem find?_findSpeakersInArticle (doc : Document) (lex : Lexicon) (utterance : Nat) :
    (doc.findSpeakersInArticle lex).speakers.find? utterance =
      ((doc.narratedSubject? lex utterance).bind doc.subjectText?).or
        (doc.speakers.find? utterance) := by
  have worded : ∀ st p, doc.quotationSubject? lex st = some p →
      (doc.subjectText? p).isSome = true := fun _ _ => isSome_text_quotationSubject?
  rw [findSpeakersInArticle, narratedSubject?, ← findSome?_bind worded]
  simp only [← quotationSpeaker?_eq]
  exact Table.find?_foldl_insert_filterMap Stretch.utterance _ doc.stretches _ utterance

/-- Narration names a subject for an utterance only where a stretch begins in it. -/
theorem exists_stretch_of_narratedSubject? {lex : Lexicon} {utterance : Nat} {p : Position}
    (named : doc.narratedSubject? lex utterance = some p) :
    ∃ st ∈ doc.stretches, st.utterance = utterance ∧ doc.quotationSubject? lex st = some p := by
  obtain ⟨st, mem, found⟩ := List.exists_of_findSome?_eq_some named
  obtain ⟨mem, begins⟩ := List.mem_filter.mp mem
  exact ⟨st, List.mem_reverse.mp mem, by simpa using begins, found⟩

/-! ## Speakers are not read -/

/-- Two documents with the same heads and the same tokens but for their speakers. -/
structure ReadsAlike (doc d : Document) : Prop where
  headed : d.headed = doc.headed
  sentences : (d.mapTokens Token.unspoken).sentences = (doc.mapTokens Token.unspoken).sentences

theorem stretchesFrom_unspoken (last : Position) (since? : Option (Nat × Position))
    (row : List (Token × Position)) :
    stretchesFrom last since? (row.map fun entry => (entry.1.unspoken, entry.2)) =
      stretchesFrom last since? row := by
  induction row generalizing since? with
  | nil => rfl
  | cons entry rest ih =>
    obtain ⟨t, position⟩ := entry
    have same : t.unspoken.utterance = t.utterance := rfl
    cases since? with
    | none => simp only [List.map_cons, stretchesFrom, same, ih]
    | some since => simp only [List.map_cons, stretchesFrom, same, ih]

theorem stretches_unspoken (doc : Document) :
    (doc.mapTokens Token.unspoken).stretches = doc.stretches := by
  have lengths (sentence : Nat) : (doc.mapTokens Token.unspoken).sentenceLength sentence =
      doc.sentenceLength sentence := by
    rw [sentenceLength, mapTokens, List.getElem?_map, sentenceLength]
    cases doc.sentences[sentence]? with
    | none => rfl
    | some s => exact List.length_map Token.unspoken
  have last : (doc.mapTokens Token.unspoken).lastPosition = doc.lastPosition := by
    rw [lastPosition, lengths, mapTokens, List.length_map, lastPosition]
  have placed : (doc.mapTokens Token.unspoken).positioned =
      doc.positioned.map fun entry => (entry.1.unspoken, entry.2) := by
    rw [positioned, positioned, mapTokens, List.zipIdx_map, List.flatMap_map, List.map_flatMap]
    refine List.flatMap_congr fun entry _ => ?_
    dsimp only [Prod.map]
    rw [List.zipIdx_map, List.map_map, List.map_map]
    rfl
  rw [stretches, last, placed, stretchesFrom_unspoken, stretches]

theorem verbsBetween_unspoken (doc : Document) (lex : Lexicon) (sentence start stop : Nat) :
    (doc.mapTokens Token.unspoken).verbsBetween lex sentence start stop =
      doc.verbsBetween lex sentence start stop := by
  have tokens (s : Sentence) (place : Nat) (p : Token → Bool) (blind : ∀ t, p t.unspoken = p t) :
      ((s.tokens.map Token.unspoken)[place]?).map p = (s.tokens[place]?).map p := by
    rw [List.getElem?_map, Option.map_map]
    exact congrArg (Option.map · _) (funext blind)
  have asked (s : Sentence) (graph : DependencyGraph) :
      verbsAt lex { s with tokens := s.tokens.map Token.unspoken } graph = verbsAt lex s graph := by
    funext place
    rw [verbsAt, verbsAt]
    dsimp only
    simp only [tokens s _ isVerbal fun _ => rfl]
    rw [List.getElem?_map]
    cases s.tokens[place]? <;> rfl
  rw [verbsBetween, mapTokens, List.getElem?_map, verbsBetween]
  cases doc.sentences[sentence]? with
  | none => rfl
  | some s =>
    have same : ({ s with tokens := s.tokens.map Token.unspoken } : Sentence).dependencies? =
        s.dependencies? := rfl
    have length : ({ s with tokens := s.tokens.map Token.unspoken } : Sentence).length =
        s.length := List.length_map Token.unspoken
    rw [Option.map_some]
    dsimp only
    rw [same, length]
    simp only [asked]

namespace ReadsAlike

theorem sentenceLength (h : doc.ReadsAlike d) (sentence : Nat) :
    d.sentenceLength sentence = doc.sentenceLength sentence := by
  have length (d : Document) : d.sentenceLength sentence =
      (((d.mapTokens Token.unspoken).sentences[sentence]?).map Sentence.length).getD 0 := by
    rw [Document.sentenceLength, mapTokens, List.getElem?_map, Option.map_map]
    refine congrArg (fun n? : Option Nat => n?.getD 0) (congrArg (Option.map · _) ?_)
    funext s
    exact (List.length_map Token.unspoken).symm
  rw [length, h.sentences, length]

theorem stretches (h : doc.ReadsAlike d) : d.stretches = doc.stretches := by
  rw [← stretches_unspoken d, ← stretches_unspoken doc]
  simp only [Document.stretches, lastPosition, Document.sentenceLength, positioned, h.sentences]

theorem word_tokenAt? (h : doc.ReadsAlike d) (p : Position) :
    (d.tokenAt? p.1 p.2).map Token.word = (doc.tokenAt? p.1 p.2).map Token.word := by
  have word (d : Document) : (d.tokenAt? p.1 p.2).map Token.word =
      ((d.mapTokens Token.unspoken).tokenAt? p.1 p.2).map Token.word := by
    rw [tokenAt?_mapTokens, Option.map_map]
    rfl
  rw [word, tokenAt?, h.sentences, ← tokenAt?, ← word]

theorem subjectText? (h : doc.ReadsAlike d) : d.subjectText? = doc.subjectText? := by
  funext p
  rw [Document.subjectText?, h.headed, h.word_tokenAt?, Document.subjectText?]

theorem subjectOfVerb? (h : doc.ReadsAlike d) : d.subjectOfVerb? = doc.subjectOfVerb? := by
  have graph (d : Document) (sentence : Nat) :
      d.sentences[sentence]?.bind Sentence.dependencies? =
        (d.mapTokens Token.unspoken).sentences[sentence]?.bind Sentence.dependencies? := by
    rw [mapTokens, List.getElem?_map, Option.bind_map]
    rfl
  have asked (d : Document) (verb : Position) : d.subjectOfVerb? verb =
      (d.sentences[verb.1]?.bind Sentence.dependencies?).bind fun graph =>
        (graph.child? verb.2 "nsubj").bind fun subject =>
          if (d.subjectText? (verb.1, subject)).isSome then some (verb.1, subject) else none := by
    rw [Option.bind_assoc]
    rfl
  funext verb
  rw [asked, graph, h.sentences, h.subjectText?, ← graph, ← asked]

theorem quotationSubject? (h : doc.ReadsAlike d) (lex : Lexicon) :
    d.quotationSubject? lex = doc.quotationSubject? lex := by
  have count : d.sentences.length = doc.sentences.length := by
    have lengths := congrArg List.length h.sentences
    rwa [mapTokens, mapTokens, List.length_map, List.length_map] at lengths
  have verbs (sentence start stop : Nat) : d.verbsBetween lex sentence start stop =
      doc.verbsBetween lex sentence start stop := by
    rw [← verbsBetween_unspoken d, ← verbsBetween_unspoken doc, verbsBetween, h.sentences,
      ← verbsBetween]
  funext st
  rw [Document.quotationSubject?, h.subjectOfVerb?, verbsAround]
  simp only [verbs, h.sentenceLength, count]
  rfl

theorem narratedSubject? (h : doc.ReadsAlike d) (lex : Lexicon) :
    d.narratedSubject? lex = doc.narratedSubject? lex := by
  funext utterance
  rw [Document.narratedSubject?, h.stretches, h.quotationSubject?, Document.narratedSubject?]

end ReadsAlike

end Document

end Discourse
