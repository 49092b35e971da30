import Discourse.Proofs.Preparation.Pairs
/-!
# Narration in articles

The narration of an unmarked article is utterance 0, and nobody speaks it: no stretch of quoted tokens
begins there, so that the search names nobody for it, and its placeholder is no name with which
mentions could be found.  The same is true of a quotation around which no subject is found.

For that an utterance has to be one quotation.  A glyph ends what is quoted and stays itself in
utterance 0, and after an opening the utterance is a new one.  So the utterances of the tokens are runs
of growing numbers with narration in between (`Spaced`), the stretches of the article are these runs
(`Spaced.stretches`), and the search around the quotation of an utterance is all the search there
is for it.
-/

namespace Discourse

/-- A row of tokens in runs of one utterance each, with narration in between; every run has a larger
utterance than those before, the first a larger one than `bound`. -/
inductive Spaced : Nat → List (Token × Position) → Prop
  | nil (bound : Nat) : Spaced bound []
  | narrated {bound : Nat} {entry : Token × Position} {rest : List (Token × Position)} :
      entry.1.utterance = 0 → Spaced bound rest → Spaced bound (entry :: rest)
  | quoted {bound utterance : Nat} {entry : Token × Position}
      {more rest : List (Token × Position)} :
      bound < utterance → (∀ e ∈ entry :: more, e.1.utterance = utterance) →
      (∀ e ∈ rest.head?, e.1.utterance = 0) → Spaced utterance rest →
      Spaced bound (entry :: (more ++ rest))

namespace Spaced

variable {bound : Nat} {row : List (Token × Position)}

theorem weaken (h : Spaced bound row) {lower : Nat} (le : lower ≤ bound) : Spaced lower row := by
  induction h generalizing lower with
  | nil => exact .nil lower
  | narrated outside _ ih => exact .narrated outside (ih le)
  | quoted above within ends rest _ => exact .quoted (Nat.lt_of_le_of_lt le above) within ends rest

theorem utterance_cases (h : Spaced bound row) :
    ∀ e ∈ row, e.1.utterance = 0 ∨ bound < e.1.utterance := by
  induction h with
  | nil => exact fun e mem => absurd mem List.not_mem_nil
  | narrated outside _ ih => exact List.forall_mem_cons.mpr ⟨.inl outside, ih⟩
  | @quoted bound utterance entry more rest above within _ _ ih =>
    intro e mem
    rcases List.mem_append.mp (List.cons_append ▸ mem : e ∈ (entry :: more) ++ rest) with mem | mem
    · exact .inr (within e mem ▸ above)
    · exact (ih e mem).imp_right fun lt => Nat.lt_trans above lt

end Spaced

/-- The tokens that the machine leaves: what is quoted still, then runs with larger utterances. -/
theorem UtteranceState.Follows.spaced {st : UtteranceState} {open? : Option Nat} {count : Nat}
    (h : st.Follows open? count) {ts : List Token} (silent : ∀ t ∈ ts, t.speaker? = none)
    {row : List (Token × Position)}
    (same : row.map (fun e => e.1.utterance) = (st.run ts).1.map Token.utterance) :
    ∃ lead rest, row = lead ++ rest ∧ (∀ e ∈ lead, e.1.utterance = count) ∧
      (open? = none → lead = []) ∧ (∀ e ∈ rest.head?, e.1.utterance = 0) ∧ Spaced count rest := by
  induction ts generalizing st open? count row with
  | nil =>
    obtain rfl := List.map_eq_nil_iff.mp same
    exact ⟨[], [], rfl, by simp, fun _ => rfl, by simp, .nil count⟩
  | cons t ts ih =>
    obtain ⟨silentT, silent⟩ := List.forall_mem_cons.mp silent
    rw [run_cons, List.map_cons] at same
    obtain ⟨e, row, rfl, first, same⟩ := List.map_eq_cons_iff.mp same
    obtain ⟨next, utterance⟩ := h.step silentT 0
    obtain ⟨lead, rest, rfl, inLead, closed, ends, spaced⟩ := ih next silent same
    have first : e.1.utterance = _ := first.trans utterance
    have opened := isSome_glyphStep h.inQuote 0 t
    cases opens : st.opens t with
    | false =>
      rw [opens] at inLead spaced opened first
      cases inside : st.inQuote && !st.closes t with
      | true =>
        -- the token is quoted, too, and the run goes on with it
        rw [inside] at first
        refine ⟨e :: lead, rest, rfl, List.forall_mem_cons.mpr ⟨first, inLead⟩, fun none => ?_, ends,
          spaced⟩
        rw [h.inQuote, none] at inside
        cases inside
      | false =>
        rw [inside] at first opened
        have nothing : lead = [] := closed (Option.isNone_iff_eq_none.mp (by simpa using opened))
        subst nothing
        exact ⟨[], e :: rest, rfl, by simp, fun _ => rfl, by simpa using first,
          .narrated first spaced⟩
    | true =>
      -- the glyph itself is narration, and what was the lead is now a run behind it
      rw [opens] at inLead spaced first
      rw [Bool.not_true, Bool.and_false, if_neg Bool.false_ne_true] at first
      refine ⟨[], e :: (lead ++ rest), rfl, by simp, fun _ => rfl, by simpa using first,
        .narrated first ?_⟩
      cases lead with
      | nil => exact spaced.weaken (Nat.le_add_right ..)
      | cons e' more => exact .quoted (Nat.lt_add_one count) inLead ends spaced

/-! ## The quotation of an utterance -/

/-- A stretch is the quotation of an utterance: all the tokens of the utterance stand in a row, which
begins and ends where the stretch does. -/
def IsQuotationIn (last : Position) (row : List (Token × Position)) (st : Stretch) : Prop :=
  ∃ front entry more back, row = front ++ entry :: (more ++ back) ∧
    (∀ e ∈ entry :: more, e.1.utterance = st.utterance) ∧
    (∀ e ∈ front ++ back, e.1.utterance ≠ st.utterance) ∧
    entry.2 = st.first ∧ (back.head?.map Prod.snd).getD last = st.after

theorem dropWhile_append_eq {α : Type} {p : α → Bool} {xs ys : List α}
    (passed : ∀ x ∈ xs, p x = true) (stops : ∀ y ∈ ys.head?, p y = false) :
    (xs ++ ys).dropWhile p = ys := by
  rw [List.dropWhile_append_of_pos passed]
  cases ys with
  | nil => rfl
  | cons y rest => exact List.dropWhile_cons_of_neg (by simpa using stops y rfl)

namespace IsQuotationIn

variable {last : Position} {row : List (Token × Position)} {st st' : Stretch}

theorem behind (h : IsQuotationIn last row st) (before : List (Token × Position))
    (other : ∀ e ∈ before, e.1.utterance ≠ st.utterance) : IsQuotationIn last (before ++ row) st := by
  obtain ⟨front, entry, more, back, rfl, within, beside, ends⟩ := h
  refine ⟨before ++ front, entry, more, back, (List.append_assoc ..).symm, within, ?_, ends⟩
  rw [List.append_assoc]
  exact List.forall_mem_append.mpr ⟨other, beside⟩

/-- An utterance has one quotation: it begins behind what is in front of the utterance, and ends in
front of what is behind it. -/
theorem eq_dropWhile (h : IsQuotationIn last row st) :
    ∃ entry more,
      row.dropWhile (fun e => e.1.utterance != st.utterance) = entry :: more ∧
        st = ⟨st.utterance, entry.2,
          (((entry :: more).dropWhile (fun e => e.1.utterance == st.utterance)).head?.map
            Prod.snd).getD last⟩ := by
  obtain ⟨front, entry, more, back, rfl, within, beside, first, after⟩ := h
  obtain ⟨beside, behind⟩ := List.forall_mem_append.mp beside
  have here := within entry List.mem_cons_self
  have begins : (front ++ entry :: (more ++ back)).dropWhile
      (fun e => e.1.utterance != st.utterance) = entry :: (more ++ back) :=
    dropWhile_append_eq (by simpa using beside) (by simpa using here)
  have ends : (entry :: more ++ back).dropWhile (fun e => e.1.utterance == st.utterance) = back :=
    dropWhile_append_eq (by simpa using within)
      fun e first => by simpa using behind e (List.mem_of_mem_head? first)
  refine ⟨entry, more ++ back, begins, ?_⟩
  rw [← List.cons_append, ends, first, after]

theorem unique (h : IsQuotationIn last row st) (h' : IsQuotationIn last row st')
    (same : st.utterance = st'.utterance) : st = st' := by
  obtain ⟨entry, more, begins, eq⟩ := h.eq_dropWhile
  obtain ⟨entry', more', begins', eq'⟩ := h'.eq_dropWhile
  rw [← same] at begins' eq'
  obtain ⟨rfl, rfl⟩ := List.cons.inj (begins.symm.trans begins')
  exact eq.trans eq'.symm

end IsQuotationIn

/-- A stretch that is being read goes on up to narration. -/
theorem stretchesFrom_some {last first : Position} {utterance : Nat}
    {more rest : List (Token × Position)} (spoken : ∀ e ∈ more, e.1.utterance ≠ 0)
    (ends : ∀ e ∈ rest.head?, e.1.utterance = 0) :
    stretchesFrom last (some (utterance, first)) (more ++ rest) =
      ⟨utterance, first, (rest.head?.map Prod.snd).getD last⟩ :: stretchesFrom last none rest := by
  induction more with
  | nil =>
    cases rest with
    | nil => rfl
    | cons entry rest =>
      obtain ⟨t, position⟩ := entry
      have silent : t.utterance = 0 := ends (t, position) rfl
      rw [List.nil_append, stretchesFrom, if_pos silent, stretchesFrom, if_pos silent]
      rfl
  | cons entry more ih =>
    obtain ⟨t, position⟩ := entry
    obtain ⟨speaks, spoken⟩ := List.forall_mem_cons.mp spoken
    rw [List.cons_append, stretchesFrom, if_neg speaks, ih spoken]

namespace Spaced

variable {bound : Nat} {row : List (Token × Position)}

/-- The stretches of a spaced row are the quotations of its utterances. -/
theorem stretches (h : Spaced bound row) (last : Position) :
    (∀ st ∈ stretchesFrom last none row, bound < st.utterance ∧ IsQuotationIn last row st) ∧
      ∀ e ∈ row, e.1.utterance ≠ 0 →
        ∃ st ∈ stretchesFrom last none row, st.utterance = e.1.utterance := by
  induction h with
  | nil => exact ⟨fun st mem => absurd mem List.not_mem_nil, fun e mem => absurd mem List.not_mem_nil⟩
  | @narrated bound entry rest outside _ ih =>
    obtain ⟨t, position⟩ := entry
    rw [stretchesFrom, if_pos outside]
    refine ⟨fun st mem => ?_, List.forall_mem_cons.mpr ⟨fun spoken => absurd outside spoken, ih.2⟩⟩
    obtain ⟨above, quotation⟩ := ih.1 st mem
    refine ⟨above, quotation.behind [(t, position)] fun e here => ?_⟩
    obtain rfl := List.mem_singleton.mp here
    exact fun same => Nat.not_lt_zero _ (outside ▸ same ▸ above : bound < 0)
  | @quoted bound utterance entry more rest above within ends spaced ih =>
    obtain ⟨t, position⟩ := entry
    have speaks : ∀ e ∈ (t, position) :: more, e.1.utterance ≠ 0 := fun e mem =>
      within e mem ▸ Nat.ne_of_gt (Nat.zero_lt_of_lt above)
    obtain ⟨first, speaks⟩ := List.forall_mem_cons.mp speaks
    have same : t.utterance = utterance := within (t, position) List.mem_cons_self
    rw [stretchesFrom, if_neg first, stretchesFrom_some speaks ends, same]
    refine ⟨List.forall_mem_cons.mpr ⟨⟨above, ?_⟩, fun st mem => ?_⟩, fun e mem spoken => ?_⟩
    · refine ⟨[], (t, position), more, rest, rfl, within, fun e mem => ?_, rfl, rfl⟩
      rcases spaced.utterance_cases e mem with silent | later
      · exact silent ▸ Nat.ne_of_lt (Nat.zero_lt_of_lt above)
      · exact Nat.ne_of_gt later
    · obtain ⟨later, quotation⟩ := ih.1 st mem
      refine ⟨Nat.lt_trans above later, quotation.behind ((t, position) :: more) ?_⟩
      exact fun e mem => within e mem ▸ Nat.ne_of_lt later
    · rcases List.mem_append.mp (List.cons_append ▸ mem : e ∈ ((t, position) :: more) ++ rest)
        with inside | behind
      · exact ⟨_, List.mem_cons_self, (within e inside).symm⟩
      · obtain ⟨st, mem, begins⟩ := ih.2 e behind spoken
        exact ⟨st, List.mem_cons_of_mem _ mem, begins⟩

end Spaced

namespace Document

variable {doc d : Document} {lex : Lexicon}

/-- A stretch is the quotation of an utterance outside narration. -/
def IsQuotation (d : Document) (st : Stretch) : Prop :=
  st.utterance ≠ 0 ∧ IsQuotationIn d.lastPosition d.positioned st

theorem map_fst_positioned (d : Document) : d.positioned.map Prod.fst = d.tokens := by
  have placed (entry : Sentence × Nat) :
      (entry.1.tokens.zipIdx.map fun t => (t.1, (entry.2, t.2))).map Prod.fst =
        entry.1.tokens := by
    rw [List.map_map]
    exact List.zipIdx_map_fst 0 entry.1.tokens
  have sentences : d.sentences.zipIdx.map Prod.fst = d.sentences := List.zipIdx_map_fst 0 d.sentences
  rw [positioned, List.map_flatMap, List.flatMap_congr fun entry _ => placed entry, tokens]
  conv_rhs => rw [← sentences, List.flatMap_map]

/-- In an unmarked document every utterance but narration is one run of tokens. -/
theorem spaced_positioned (unmarked : doc.marked = false) (lex : Lexicon) :
    Spaced 0 (doc.processDiscourse lex).positioned := by
  have start : doc.dropMarks.utteranceStart.Follows none 0 :=
    ⟨rfl, rfl, rfl, rfl, fun opened => by cases opened⟩
  have same : (doc.processDiscourse lex).positioned.map (fun e => e.1.utterance) =
      (doc.dropMarks.utteranceStart.run doc.dropMarks.tokens).1.map Token.utterance := by
    have placed : (doc.processDiscourse lex).positioned.map (fun e => e.1.utterance) =
        (doc.processDiscourse lex).tokens.map Token.utterance := by
      rw [← map_fst_positioned, List.map_map]
      rfl
    rw [placed, (doc.processDiscourse_fields lex).2, doc.markDiscourse_fields.1, uttered, unmarked,
      if_neg Bool.false_ne_true, tokens_setUtterances, List.map_map, utterance_respoken]
  obtain ⟨lead, rest, split, -, closed, -, spaced⟩ := start.spaced doc.silent_dropMarks same
  rw [split, closed rfl]
  exact spaced

/-! ## Who speaks in an article -/

/-- An utterance for which narration names no subject keeps its placeholder. -/
theorem eq_placeholderSpeaker (untold : doc.Untold)
    (article : (doc.processDiscourse lex).genre = .article) {utterance : Nat} {s : String}
    (unnamed : (doc.processDiscourse lex).narratedSubject? lex utterance = none)
    (found : (doc.processDiscourse lex).speakers.find? utterance = some s) :
    s = placeholderSpeaker utterance := by
  have hushed := hushed_markDiscourse untold.marked
  obtain ⟨marking, -, sameInfo⟩ := doc.markDiscourse_cases
  obtain ⟨-, unspoken, -⟩ := doc.markDiscourse_fields
  rw [(doc.readsAlike_processDiscourse lex).narratedSubject?] at unnamed
  rw [(doc.processDiscourse_fields lex).1] at article
  obtain ⟨pairs, last⟩ := findSpeakerPairs_eq
    (doc.markDiscourse.findSpeakers lex).describeSpeakers.reconcileSpeakers.markSpeakers
  rw [processDiscourse, last] at found
  have found : (doc.markDiscourse.findSpeakers lex).describeSpeakers.reconcileSpeakers.speakers.find?
      utterance = some s := found
  obtain ⟨name, before⟩ := exists_of_find?_reconcileSpeakers found
  have before : (doc.markDiscourse.findSpeakers lex).speakers.find? utterance = some name := before
  rw [find?_reconciled lex (sameInfo.trans untold.speakerInfo) before] at found
  obtain rfl := Option.some.inj found
  rcases findSpeakers_cases (marking.marked.trans untold.marked) article
    (unspoken.trans untold.speakers) hushed before with ⟨p, named, -⟩ | rfl
  · cases unnamed.symm.trans named
  · exact reconciledName_of_unreal (hasRealName_placeholderSpeaker utterance)

/-- Nothing is named for narration. -/
theorem narratedSubject?_zero (d : Document) (lex : Lexicon) : d.narratedSubject? lex 0 = none := by
  refine Option.eq_none_iff_forall_ne_some.mpr fun p named => ?_
  obtain ⟨st, mem, begins, -⟩ := exists_stretch_of_narratedSubject? named
  exact utterance_ne_zero_of_mem_stretchesFrom (fun _ none => by cases none) mem begins

/-- The search for an utterance is the search around its quotation. -/
theorem narratedSubject?_of_unnamed (spaced : Spaced 0 d.positioned) {st : Stretch}
    (quotation : d.IsQuotation st) (unnamed : d.quotationSpeaker? lex st.first st.after = none) :
    d.narratedSubject? lex st.utterance = none := by
  refine Option.eq_none_iff_forall_ne_some.mpr fun p named => ?_
  obtain ⟨st', mem, begins, found⟩ := exists_stretch_of_narratedSubject? named
  obtain rfl := ((spaced.stretches d.lastPosition).1 st' mem).2.unique quotation.2 begins
  obtain ⟨text, worded⟩ := Option.isSome_iff_exists.mp (isSome_text_quotationSubject? found)
  rw [quotationSpeaker?_eq, found, Option.bind_some, worded] at unnamed
  cases unnamed

/-- Nobody speaks the narration of a document, and nobody a quotation unless narration says so.  The
search reads no speakers, so it finds in the analysed document what was found on the way. -/
structure NarrationUnspoken (lex : Lexicon) (d : Document) : Prop where
  narration : ∀ t ∈ d.tokens, t.utterance = 0 → t.speaker? = some "PER0"
  /-- Every utterance outside narration is one quotation. -/
  quotation : ∀ t ∈ d.tokens, t.utterance ≠ 0 → ∃ st, d.IsQuotation st ∧ st.utterance = t.utterance
  /-- A quotation around which no subject is found is spoken by its own placeholder. -/
  unnamed : ∀ st, d.IsQuotation st → d.quotationSpeaker? lex st.first st.after = none →
    d.speakers.find? st.utterance = some (placeholderSpeaker st.utterance) ∧
      ∀ t ∈ d.tokens, t.utterance = st.utterance →
        t.speaker? = some (placeholderSpeaker st.utterance)
  /-- Whoever has a speaker among the mentions is headed outside narration. -/
  paired : ∀ a b, (a, b) ∈ d.speakerPairs.toList →
    ∃ m ∈ d.mentions.values, m.id = a ∧ ∃ t, d.headToken? m = some t ∧ t.utterance ≠ 0

/-- In an unmarked article narration has no speaker. -/
theorem processDiscourse_narration (untold : doc.Untold)
    (article : (doc.processDiscourse lex).genre = .article) :
    (doc.processDiscourse lex).NarrationUnspoken lex := by
  have spaced := doc.spaced_positioned untold.marked lex
  have settled := doc.processDiscourse_spoken lex untold.speakerInfo untold.speakerPairs
  have placeholder : ∀ {utterance s},
      (doc.processDiscourse lex).narratedSubject? lex utterance = none →
        (doc.processDiscourse lex).speakers.find? utterance = some s →
          s = placeholderSpeaker utterance := eq_placeholderSpeaker untold article
  have ids : ¬(doc.marked = true ∧ doc.fromColumns = false) := by simp [untold.marked]
  generalize doc.processDiscourse lex = d at *
  refine ⟨fun t mem silent => ?_, fun t mem speaks => ?_, fun st quotation unnamed => ?_,
    fun a b paired => ?_⟩
  · obtain ⟨s, found, speaker⟩ := settled.spoken t mem
    rw [silent] at found
    rw [speaker, placeholder (d.narratedSubject?_zero lex) found]
    rfl
  · obtain ⟨entry, listed, rfl⟩ := List.mem_map.mp (d.map_fst_positioned ▸ mem)
    obtain ⟨st, mem, begins⟩ := (spaced.stretches d.lastPosition).2 entry listed speaks
    exact ⟨st, ⟨begins ▸ speaks, ((spaced.stretches d.lastPosition).1 st mem).2⟩, begins⟩
  · have unnamed := narratedSubject?_of_unnamed spaced quotation unnamed
    have each : ∀ t ∈ d.tokens, t.utterance = st.utterance →
        d.speakers.find? st.utterance = some (placeholderSpeaker st.utterance) ∧
          t.speaker? = some (placeholderSpeaker st.utterance) := by
      intro t mem same
      obtain ⟨s, found, speaker⟩ := settled.spoken t mem
      rw [same] at found
      obtain rfl := placeholder unnamed found
      exact ⟨found, speaker⟩
    refine ⟨?_, fun t mem same => (each t mem same).2⟩
    obtain ⟨front, entry, more, back, split, within, -⟩ := quotation.2
    have listed : entry.1 ∈ d.tokens := by
      rw [← map_fst_positioned, split]
      exact List.mem_map_of_mem (List.mem_append_right front List.mem_cons_self)
    exact (each entry.1 listed (within entry List.mem_cons_self)).1
  · obtain ⟨m, listed, same, t, s, head, found, decimal, -⟩ := (settled.paired ids a b).mp paired
    refine ⟨m, listed, same, t, head, fun silent => ?_⟩
    rw [silent] at found
    obtain rfl := placeholder (d.narratedSubject?_zero lex) found
    rw [isDecimalId_placeholderSpeaker] at decimal
    cases decimal

/-- Narration names who speaks the first quotation, and nobody for the second. -/
theorem processDiscourse_narration_two_quotations :
    let lex : Lexicon := ⟨KeySet.ofList ["say"], {}, {}, {}, {}⟩
    let sentences : List Sentence :=
      [{ tokens := [.ofWord "Joe" "NNP", { Token.ofWord "said" "VBD" with baseForm := "say" },
          .ofWord "\"" "``", .ofWord "I" "PRP", .ofWord "\"" "''"]
         basic? := some ⟨[⟨none, 1, "root"⟩, ⟨some 1, 0, "nsubj"⟩]⟩ },
        { tokens := [.ofWord "Rain" "NN", .ofWord "fell" "VBD"] },
        { tokens := [.ofWord "\"" "``", .ofWord "Go" "VB", .ofWord "\"" "''"] }]
    let joe : Mention :=
      { id := 0, sentence := 0, start := 0, stop := 1, head := 0, text := "Joe", type := .proper }
    let i : Mention := { id := 1, sentence := 0, start := 3, stop := 4, head := 3, text := "I" }
    let doc := ((ofSentences "" sentences).addMention joe).addMention i
    let d := doc.processDiscourse lex
    doc.Untold ∧ d.genre = .article ∧
      d.tokens.map (fun t => (t.utterance, t.speaker?)) =
        [(0, some "PER0"), (0, some "PER0"), (0, some "PER0"), (1, some "0"), (0, some "PER0"),
          (0, some "PER0"), (0, some "PER0"),
          (0, some "PER0"), (2, some "PER2"), (0, some "PER0")] ∧
      d.speakerPairs.toList = [(1, 0)] ∧ d.NarrationUnspoken lex := by
  intro lex sentences joe i doc d
  have untold : doc.Untold := ⟨rfl, rfl, rfl, rfl⟩
  have article : d.genre = .article := by decide +kernel
  exact ⟨untold, article, by decide +kernel, by decide +kernel,
    processDiscourse_narration untold article⟩

end Document

end Discourse
