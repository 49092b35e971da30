import Discourse.Proofs.Attribution.Composition
import Discourse.Proofs.Attribution.Glyphs
/-!
# Subjects of reporting verbs

The sieve that looks for the subject of a reporting verb reads the first and the last sentence of a
quotation and none in between.  It misses nothing: a sentence in between lies in the quotation with all
its tokens (`Document.Builds.containsToken_of_between`), and a verb in a quotation does not count,
whichever quotation its token is assigned to.  So the sentences in between have no subject to give
(`Document.sentenceSubject?_of_between`), and the sieve finds what a scan of all sentences of the
quotation finds first.

The context is made before the first sieve runs and goes by the ranges of the quotations alone, which no
sieve moves, so that this holds whenever the turn of the sieve comes
(`Document.resolve_dependency_turn`).
-/

namespace Discourse

/-- Where nothing is found between the ends of a stretch of numbers, the ends decide. -/
theorem findSome?_range'_of_silent {β : Type} {f : Nat → Option β} {first last : Nat}
    (order : first ≤ last) (silent : ∀ i, first < i → i < last → f i = none) :
    (List.range' first (last + 1 - first)).findSome? f = (f first).or (f last) := by
  rcases Nat.eq_or_lt_of_le order with rfl | before
  · rw [Nat.add_sub_cancel_left, List.range'_one, List.findSome?_singleton, Option.or_self]
  · obtain ⟨k, rfl⟩ := Nat.exists_eq_add_of_lt before
    have inner : (List.range' (first + 1) k).findSome? f = none := by
      refine List.findSome?_eq_none_iff.mpr fun i mem => ?_
      obtain ⟨behind, ahead⟩ := List.mem_range'_1.mp mem
      exact silent i (by omega) (by omega)
    have ends : List.range' first (first + k + 1 + 1 - first) =
        first :: (List.range' (first + 1) k ++ [first + k + 1]) := by
      rw [show first + k + 1 + 1 - first = k + 1 + 1 by omega, List.range'_succ,
        List.range'_1_concat, show first + 1 + k = first + k + 1 by omega]
    rw [ends, List.findSome?_cons, List.findSome?_append, inner, Option.none_or,
      List.findSome?_singleton]
    cases f first <;> rfl

/-- Of two numbers as a set the smaller one comes first. -/
theorem findSome?_ofList_pair {β : Type} (f : Nat → Option β) {first last : Nat}
    (order : first ≤ last) :
    (KeySet.ofList [first, last]).toList.findSome? f = (f first).or (f last) := by
  rcases Nat.eq_or_lt_of_le order with rfl | before
  · have once : (KeySet.ofList [first, first]).toList = [first] := by
      show ((KeySet.insert {} first).insert first).toList = [first]
      rw [KeySet.insert_of_mem ((KeySet.mem_insert {} first first).mpr (.inl rfl))]
      rfl
    rw [once, List.findSome?_singleton, Option.or_self]
  · have both : (KeySet.ofList [first, last]).toList = [first, last] := by
      have absent : (KeySet.insert {} first).contains last = false := by
        refine eq_false_of_ne_true fun found => ?_
        have mem := (KeySet.contains_iff _ last).mp found
        rw [KeySet.mem_insert, KeySet.toList_empty] at mem
        rcases mem with same | nowhere
        · omega
        · cases nowhere
      have behind : KeyOrder.before last first = false :=
        eq_false_of_ne_true fun ahead => absurd (Nat.blt_eq.mp ahead) (Nat.lt_asymm before)
      show ((KeySet.insert {} first).insert last).toList = [first, last]
      rw [KeySet.insert, dif_neg (ne_true_of_eq_false absent)]
      show (if KeyOrder.before last first then [last, first] else [first, last]) = _
      rw [behind, if_neg Bool.false_ne_true]
    rw [both, List.findSome?_cons, List.findSome?_singleton]
    cases f first <;> rfl

namespace Document

variable {doc : Document} {q : Quotation} {i j token : Nat} {s : Sentence} {lex : Lexicon}

/-- The quotation is over a range of tokens of the document, whatever it has been attributed. -/
def Builds (doc : Document) (q : Quotation) : Prop :=
  ∃ index start stop, start < stop ∧ stop ≤ doc.tokenCount ∧
    q.bare = doc.quotationOf index start stop

/-- The quotations that are found are over ranges of the document. -/
theorem builds_of_mem_detectQuotes (found : q ∈ doc.detectQuotes) : doc.Builds q := by
  rw [detectQuotes, List.mem_map] at found
  obtain ⟨⟨range, index⟩, mem, rfl⟩ := found
  have listed := List.mem_of_getElem? (List.mem_zipIdx_iff_getElem?.mp mem)
  have marked : doc.GlyphRanges 0 (quoteRanges none 0 doc.tokens) := (glyphRanges_quoteRanges rfl).1
  have encloses := marked.enclosed range listed
  have later := encloses.later
  exact ⟨index, range.1, range.2, by omega, encloses.inside, rfl⟩

/-- A quotation over a range knows the sentences of its first and its last token. -/
theorem Builds.exists_address (builds : doc.Builds q) :
    (∃ j, doc.IsAddress q.sentenceBegin j q.tokenBegin) ∧
      ∃ j, doc.IsAddress q.sentenceEnd j (q.tokenEnd - 1) := by
  obtain ⟨index, start, stop, later, inside, built⟩ := builds
  obtain ⟨first, j, begins⟩ := Document.exists_address (show start < doc.tokenCount by omega)
  obtain ⟨last, k, ends⟩ := Document.exists_address (show stop - 1 < doc.tokenCount by omega)
  rw [quotationOf, begins.locate?, ends.locate?] at built
  have sentenceBegin : q.bare.sentenceBegin = first := by rw [built]; rfl
  have sentenceEnd : q.bare.sentenceEnd = last := by rw [built]; rfl
  have starts : q.bare.tokenBegin = start := by rw [built]
  have stops : q.bare.tokenEnd = stop := by rw [built]
  refine ⟨⟨j, ?_⟩, k, ?_⟩
  · rw [← sentenceBegin, ← starts] at begins
    exact begins
  · rw [← sentenceEnd, ← stops] at ends
    exact ends

/-- The sentence of an earlier token is no later one. -/
theorem IsAddress.sentence_le {i' j' token' : Nat} (address : doc.IsAddress i j token)
    (address' : doc.IsAddress i' j' token') (order : token ≤ token') : i ≤ i' := by
  obtain ⟨s, -, -, rfl⟩ := address
  obtain ⟨s', here', inside', rfl⟩ := address'
  by_contra behind
  have apart := offset_add_length_le_offset here' (Nat.lt_of_not_le behind)
  omega

theorem Builds.sentenceBegin_le (builds : doc.Builds q) : q.sentenceBegin ≤ q.sentenceEnd := by
  obtain ⟨⟨j, begins⟩, k, ends⟩ := builds.exists_address
  obtain ⟨index, start, stop, later, -, built⟩ := builds
  have starts : q.bare.tokenBegin = start := by rw [built]; rfl
  have stops : q.bare.tokenEnd = stop := by rw [built]; rfl
  have order : q.bare.tokenBegin ≤ q.bare.tokenEnd - 1 := by omega
  exact begins.sentence_le ends order

/-- The tokens of a sentence between those of two tokens lie between the two. -/
theorem IsAddress.between {first j last k start stop : Nat} (begins : doc.IsAddress first j start)
    (ends : doc.IsAddress last k stop) (here : doc.sentences[i]? = some s) (behind : first < i)
    (ahead : i < last) {place : Nat} (inside : place < s.length) :
    start < doc.offset i + place ∧ doc.offset i + place < stop := by
  obtain ⟨s₁, here₁, inside₁, rfl⟩ := begins
  obtain ⟨s₂, here₂, inside₂, rfl⟩ := ends
  have below := offset_add_length_le_offset here₁ behind
  have above := offset_add_length_le_offset here ahead
  omega

/-- A sentence between the first and the last one of a quotation lies in it with all its tokens. -/
theorem Builds.containsToken_of_between (builds : doc.Builds q) (here : doc.sentences[i]? = some s)
    (behind : q.sentenceBegin < i) (ahead : i < q.sentenceEnd) {place : Nat}
    (inside : place < s.length) : q.containsToken (doc.offset i + place) = true := by
  obtain ⟨⟨j, begins⟩, k, ends⟩ := builds.exists_address
  obtain ⟨after, before⟩ := begins.between ends here behind ahead inside
  rw [Quotation.containsToken, Bool.and_eq_true, decide_eq_true_iff, decide_eq_true_iff]
  omega

/-- A token of a quotation counts as quoted, whichever quotation it is assigned to. -/
theorem inQuote_context_of_containsToken (listed : q ∈ doc.quotes)
    (contains : q.containsToken token = true) (inside : token < doc.tokenCount) :
    (doc.context lex).inQuote token = true := by
  by_contra outside
  have apart := not_containsToken_of_inQuote_eq_false inside (eq_false_of_ne_true outside) q listed
  rw [contains] at apart
  cases apart

end Document

namespace Scene

variable {S : Type} {sc : Scene S} {q : Quotation} {i : Nat}

/-- The subject of a reporting verb in one of the sentences from one number to another, the first that
there is.  If its place is no position, there is no result. -/
def subjectThrough (sc : Scene S) (first last : Nat) : Except Stop (Option CharacterMention) :=
  match (List.range' first (last + 1 - first)).findSome? sc.sentenceSubject? with
  | none => .ok none
  | some found => found.map some

/-- A sentence in which every token is quoted has no subject to give. -/
theorem sentenceSubject?_of_inQuote {s : Sentence} (here : sc.doc.sentences[i]? = some s)
    (quoted : ∀ place < s.length, sc.context.inQuote (sc.doc.offset i + place) = true) :
    sc.sentenceSubject? i = none := by
  rw [sentenceSubject?, here, Option.bind_eq_bind, Option.bind_some, Option.bind_eq_bind,
    Option.bind_eq_none_iff]
  intro graph _
  refine List.findSome?_eq_none_iff.mpr fun (t, place) mem => ?_
  have inside := (List.getElem?_eq_some_iff.mp (List.mem_zipIdx_iff_getElem?.mp mem)).1
  simp only [reportingSubject?]
  rw [quoted place inside, Bool.true_or, Bool.true_or, if_pos rfl]

/-- Where the sentences in between have no subject to give, the first and the last one decide. -/
theorem dependency_of_silent (order : q.sentenceBegin ≤ q.sentenceEnd)
    (silent : ∀ i, q.sentenceBegin < i → i < q.sentenceEnd → sc.sentenceSubject? i = none) :
    sc.dependency q = (sc.subjectThrough q.sentenceBegin q.sentenceEnd).map
      (Option.map CharacterMention.resolution) := by
  rw [dependency, findSome?_ofList_pair _ order, subjectThrough,
    findSome?_range'_of_silent order silent]
  cases (sc.sentenceSubject? q.sentenceBegin).or (sc.sentenceSubject? q.sentenceEnd) with
  | none => rfl
  | some found => cases found <;> rfl

end Scene

namespace Document

variable {S : Type} {doc : Document} {q : Quotation} {lex : Lexicon}
  {settings : AttributionSettings} {scorer? : Option S}

/-- A sentence between the first and the last one of a quotation has no subject to give. -/
theorem sentenceSubject?_of_between (listed : q ∈ doc.quotes) (builds : doc.Builds q) {i : Nat}
    (behind : q.sentenceBegin < i) (ahead : i < q.sentenceEnd) :
    (doc.scene lex settings scorer?).sentenceSubject? i = none := by
  cases here : doc.sentences[i]? with
  | none =>
    rw [Scene.sentenceSubject?]
    show (doc.sentences[i]?).bind _ = none
    rw [here, Option.bind_none]
  | some s =>
    let sc := doc.scene lex settings scorer?
    have here : sc.doc.sentences[i]? = some s := here
    refine Scene.sentenceSubject?_of_inQuote here fun place inside => ?_
    have contains := builds.containsToken_of_between here behind ahead inside
    have within : doc.offset i + place < doc.tokenCount :=
      IsAddress.lt_tokenCount ⟨s, here, inside, rfl⟩
    exact inQuote_context_of_containsToken listed contains within

/-- The subject that the first and the last sentence of a quotation give is the first one that any
sentence from the first to the last gives. -/
theorem dependency_eq_subjectThrough (doc : Document) (lex : Lexicon)
    (settings : AttributionSettings) (scorer? : Option S) {q : Quotation} (listed : q ∈ doc.quotes)
    (builds : doc.Builds q) :
    (doc.scene lex settings scorer?).dependency q =
      ((doc.scene lex settings scorer?).subjectThrough q.sentenceBegin q.sentenceEnd).map
        (Option.map CharacterMention.resolution) := by
  exact Scene.dependency_of_silent builds.sentenceBegin_le fun _ => sentenceSubject?_of_between
    listed builds

/-- A verb in the narration of the last sentence has the subject that counts: the verb of the
sentence before lies in the quotation, and in another one besides. -/
theorem dependency_eq_subjectThrough_joe :
    let lex : Lexicon := { (default : Lexicon) with reportVerbs := KeySet.ofList ["say"] }
    let joe : EntityMention := ⟨"Joe", 3, 10, 11, "PERSON", none⟩
    let said := { Token.ofWord "said" "VBD" with baseForm := "say" }
    let come := [Token.ofWord "\"" "``", Token.ofWord "Come" "VB", Token.ofWord "." "."]
    let nobodySaid := [Token.ofWord "Nobody" "NN", said, Token.ofWord "no" "UH", Token.ofWord "." "."]
    let nowSaidJoe := [Token.ofWord "Now" "RB", Token.ofWord "\"" "''", said,
      Token.ofWord "Joe" "NNP"]
    let text := ofSentences "" [{ tokens := come }, { tokens := [] },
      { tokens := nobodySaid, basic? := some ⟨[⟨some 1, 0, "nsubj"⟩]⟩ },
      { tokens := nowSaidJoe, basic? := some ⟨[⟨some 2, 3, "nsubj"⟩]⟩ }]
    let q := text.quotationOf 0 0 9
    let doc := { text with quotes := [q, text.quotationOf 1 4 8], entities := [joe] }
    let sc := doc.scene lex .default (none : Option Scorer)
    q ∈ doc.quotes ∧ doc.Builds q ∧
      sc.dependency q = (sc.subjectThrough 0 3).map (Option.map CharacterMention.resolution) ∧
      sc.dependency q = .ok (some ⟨"Joe", 10, 11, .name⟩) := by
  intro lex joe said come nobodySaid nowSaidJoe text q doc sc
  have builds : doc.Builds q := ⟨0, 0, 9, by decide, by decide +kernel, rfl⟩
  refine ⟨List.mem_cons_self, builds, ?_, by decide +kernel⟩
  exact dependency_eq_subjectThrough doc lex .default none List.mem_cons_self builds

/-! ## The turn of the sieve -/

/-- The scene in which a sieve decides is that of the document as it then is. -/
theorem turn_eq_scene [QuoteScorer S] (doc : Document) (lex : Lexicon)
    (settings : AttributionSettings) (scorer? : Option S) (before : List QuoteSieve)
    (sieve : QuoteSieve) (i : Nat) :
    let sc := Chain.mentions.turn (doc.scene lex settings scorer?) before sieve i
    sc = (doc.withQuotes sc.doc.quotes).scene lex settings scorer? := by
  intro sc
  have ranges : sc.doc.quotes.map Quotation.bare = doc.quotes.map Quotation.bare :=
    Chain.map_quotes_turn (fun _ _ => rfl) _ before sieve i
  rw [scene, context_withQuotes doc lex ranges]
  exact (Chain.onlyQuotes_turn _ before sieve i).rest

/-- If the quotations of a document are over ranges of its tokens, then at every turn of the sieve
the subject of the first or the last sentence is the first of all. -/
theorem resolve_dependency_turn [QuoteScorer S] (built : ∀ q ∈ doc.quotes, doc.Builds q)
    (before : List QuoteSieve) (i : Nat) :
    let sc := Chain.mentions.turn (doc.scene lex settings scorer?) before .dependency i
    QuoteSieve.dependency.resolve sc i = match sc.doc.quotes[i]? with
      | none => .ok none
      | some q => (sc.subjectThrough q.sentenceBegin q.sentenceEnd).map
          (Option.map CharacterMention.resolution) := by
  intro sc
  have ranges : sc.doc.quotes.map Quotation.bare = doc.quotes.map Quotation.bare :=
    Chain.map_quotes_turn (fun _ _ => rfl) _ before .dependency i
  have shape : sc = (doc.withQuotes sc.doc.quotes).scene lex settings scorer? :=
    turn_eq_scene doc lex settings scorer? before .dependency i
  rw [QuoteSieve.resolve]
  cases here : sc.doc.quotes[i]? with
  | none => rfl
  | some q =>
    obtain ⟨q₀, there, bare⟩ := exists_getElem?_of_map_eq ranges here
    have listed : q ∈ (doc.withQuotes sc.doc.quotes).quotes := List.mem_of_getElem? here
    have builds : (doc.withQuotes sc.doc.quotes).Builds q := by
      rw [Builds, bare]
      exact built q₀ (List.mem_of_getElem? there)
    refine Scene.dependency_of_silent builds.sentenceBegin_le fun j behind ahead => ?_
    rw [shape]
    exact sentenceSubject?_of_between listed builds behind ahead

/-- The quotations that the glyphs of a document mark are over ranges of its tokens. -/
theorem resolve_dependency_turn_detected [QuoteScorer S] (found : doc.quotes = doc.detectQuotes)
    (before : List QuoteSieve) (i : Nat) :
    let sc := Chain.mentions.turn (doc.scene lex settings scorer?) before .dependency i
    QuoteSieve.dependency.resolve sc i = match sc.doc.quotes[i]? with
      | none => .ok none
      | some q => (sc.subjectThrough q.sentenceBegin q.sentenceEnd).map
          (Option.map CharacterMention.resolution) :=
  resolve_dependency_turn (fun _ listed => builds_of_mem_detectQuotes (found ▸ listed)) before i

end Document

end Discourse
