import Discourse.Attribution.Entity
import Discourse.Proofs.Address
import Discourse.Proofs.Runs
/-!
# Entity mentions are the runs of tags

The entity mentions that the tags of a document make (`Document.TaggedEntities`): the runs of one tag in
the sentences, from left to right, so that a token with a tag is in one of them and in no other; and for
each of them a canonical mention, which includes its words and which no other one that includes them is
longer than.

The canonical mention is found by going through all mentions with the best one so far.  A canonical
mention is its own, though it was chosen for the sake of another: what includes its words includes
those of the other as well, and then is not longer (`IsFullest.canonicalPlace_eq`).
-/

namespace Discourse

/-! ## Runs of tags -/

/-- With the run that it goes on with, a row of tokens is cut into runs of one tag. -/
theorem cut_tagRunsFrom {ts run : List Token} {start : Nat} {tag : String} (nonempty : run ≠ [])
    (alike : ∀ t ∈ run, t.ner = tag) :
    Cut Token.ner start (run ++ ts) (tagRunsFrom (some (start, tag)) (start + run.length) ts) := by
  induction ts generalizing start run tag with
  | nil => exact .cons nonempty alike (fun t none => nomatch none) (.nil _)
  | cons t rest ih =>
    rw [tagRunsFrom]
    split
    next same =>
      have longer := @ih (run ++ [t]) start tag (List.concat_ne_nil t run)
        (List.forall_mem_append.mpr ⟨alike, List.forall_mem_singleton.mpr same⟩)
      rw [List.append_assoc, List.singleton_append, List.length_append, List.length_singleton,
        ← Nat.add_assoc] at longer
      exact longer
    next differs =>
      have others := @ih [t] (start + run.length) t.ner (List.cons_ne_nil t [])
        (List.forall_mem_singleton.mpr rfl)
      exact .cons nonempty alike (fun t' next => Option.some.inj next ▸ differs) others

theorem cut_tagRuns (ts : List Token) : Cut Token.ner 0 ts (tagRunsFrom none 0 ts) := by
  cases ts with
  | nil => exact .nil 0
  | cons t rest =>
    exact cut_tagRunsFrom (List.cons_ne_nil t []) (List.forall_mem_singleton.mpr rfl)

theorem isEntityTag_iff {tag : String} : isEntityTag tag = true ↔ tag ≠ "" ∧ tag ≠ "O" := by
  simp [isEntityTag]

/-- The entity mention of a run, not yet linked. -/
theorem mem_entityMentions_iff {s : Sentence} {sentence offset : Nat} {e : EntityMention} :
    e ∈ s.entityMentions sentence offset ↔
      ∃ start stop, IsRun Token.ner s.tokens start stop e.entityType ∧
        (e.entityType ≠ "" ∧ e.entityType ≠ "O") ∧
        e = ⟨s.spanText start stop, sentence, offset + start, offset + stop, e.entityType, none⟩ := by
  rw [Sentence.entityMentions, List.mem_map]
  constructor
  · rintro ⟨⟨start, stop, tag⟩, mem, rfl⟩
    obtain ⟨mem, tagged⟩ := List.mem_filter.mp mem
    exact ⟨start, stop, (cut_tagRuns s.tokens).mem_iff.mp mem, isEntityTag_iff.mp tagged, rfl⟩
  · rintro ⟨start, stop, run, tagged, same⟩
    have mem := (cut_tagRuns s.tokens).mem_iff.mpr run
    exact ⟨_, List.mem_filter.mpr ⟨mem, isEntityTag_iff.mpr tagged⟩, same.symm⟩

namespace EntityMention

/-! ## Canonical mentions -/

/-- An entity mention of the same type has all words of another. -/
def Includes (f e : EntityMention) : Prop :=
  f.entityType = e.entityType ∧ ∀ w ∈ e.smallWords, w ∈ f.smallWords

theorem Includes.refl (e : EntityMention) : e.Includes e := ⟨rfl, fun _ mem => mem⟩

theorem Includes.trans {e f g : EntityMention} (h : g.Includes f) (h' : f.Includes e) :
    g.Includes e :=
  ⟨h.1.trans h'.1, fun w mem => h.2 w (h'.2 w mem)⟩

/-- The number of words. -/
def size (e : EntityMention) : Nat := e.smallWords.length

end EntityMention

section Canonical

variable {entities : List EntityMention} {e f : EntityMention} {place : Nat}

/-- The step from the best mention so far to the next one, for an entity mention. -/
def canonicalStep (e : EntityMention) (best : Nat × List String) (other : EntityMention × Nat) :
    Nat × List String :=
  betterCanonical (e, e.smallWords) best ((other.1, other.1.smallWords), other.2)

/-- The place of the canonical mention of an entity mention, which is itself at some place. -/
def canonicalPlace (entities : List EntityMention) (e : EntityMention) (place : Nat) : Nat :=
  (entities.zipIdx.foldl (canonicalStep e) (place, e.smallWords)).1

/-- An entity mention at its place with its canonical mention found. -/
def linked (entities : List EntityMention) (entry : EntityMention × Nat) : EntityMention :=
  { entry.1 with canonical? := some (canonicalPlace entities entry.1 entry.2) }

theorem linkCanonical_eq (entities : List EntityMention) :
    linkCanonical entities = entities.zipIdx.map (linked entities) := by
  rw [linkCanonical, List.zipIdx_map, List.map_map]
  refine List.map_congr_left fun entry _ => ?_
  rw [linked, canonicalPlace]
  dsimp only [Function.comp_apply, Prod.map]
  rw [List.foldl_map]
  rfl

theorem getElem?_linkCanonical (entities : List EntityMention) (i : Nat) :
    (linkCanonical entities)[i]? = entities[i]?.map fun e => linked entities (e, i) := by
  rw [linkCanonical_eq, List.getElem?_map, List.getElem?_zipIdx, Option.map_map, Nat.zero_add]
  rfl

theorem exists_of_mem_linkCanonical (mem : e ∈ linkCanonical entities) :
    ∃ i e', entities[i]? = some e' ∧ e = linked entities (e', i) := by
  rw [linkCanonical_eq] at mem
  obtain ⟨⟨e', i⟩, listed, rfl⟩ := List.mem_map.mp mem
  exact ⟨i, e', List.mem_zipIdx_iff_getElem?.mp listed, rfl⟩

theorem canonicalStep_cases (e : EntityMention) (best : Nat × List String)
    (other : EntityMention × Nat) :
    (other.1.Includes e ∧ best.2.length < other.1.size ∧
        canonicalStep e best other = (other.2, other.1.smallWords)) ∨
      (other.1.Includes e → other.1.size ≤ best.2.length) ∧ canonicalStep e best other = best := by
  rw [canonicalStep, betterCanonical]
  split
  next better =>
    simp only [Bool.and_eq_true, beq_iff_eq, List.all_eq_true, List.contains_iff_mem,
      decide_eq_true_eq] at better
    exact .inl ⟨better.1, better.2, rfl⟩
  next worse =>
    simp only [Bool.and_eq_true, beq_iff_eq, List.all_eq_true, List.contains_iff_mem,
      decide_eq_true_eq] at worse
    refine .inr ⟨fun includes => ?_, rfl⟩
    by_contra longer
    exact worse ⟨includes, Nat.lt_of_not_le longer⟩

/-- The longest mention that includes another one. -/
structure IsFullest (entities : List EntityMention) (e f : EntityMention) : Prop where
  includes : f.Includes e
  longest : ∀ g ∈ entities, g.Includes e → g.size ≤ f.size

theorem exists_foldl_canonicalStep {row : List (EntityMention × Nat)}
    (listed : ∀ x ∈ row, entities[x.2]? = some x.1) {b : EntityMention}
    (there : entities[place]? = some b) (includes : b.Includes e) :
    ∃ place' b', row.foldl (canonicalStep e) (place, b.smallWords) = (place', b'.smallWords) ∧
      entities[place']? = some b' ∧ b'.Includes e ∧ b.size ≤ b'.size ∧
      ∀ x ∈ row, x.1.Includes e → x.1.size ≤ b'.size := by
  induction row generalizing place b with
  | nil =>
    exact ⟨place, b, rfl, there, includes, Nat.le_refl _, fun x none => absurd none List.not_mem_nil⟩
  | cons x rest ih =>
    obtain ⟨first, listed⟩ := List.forall_mem_cons.mp listed
    rw [List.foldl_cons]
    rcases canonicalStep_cases e (place, b.smallWords) x with ⟨better, longer, step⟩ | ⟨worse, step⟩
    · rw [step]
      obtain ⟨place', b', found, there', includes', le, all⟩ := ih listed first better
      exact ⟨place', b', found, there', includes', Nat.le_trans (Nat.le_of_lt longer) le,
        List.forall_mem_cons.mpr ⟨fun _ => le, all⟩⟩
    · rw [step]
      obtain ⟨place', b', found, there', includes', le, all⟩ := ih listed there includes
      exact ⟨place', b', found, there', includes', le,
        List.forall_mem_cons.mpr ⟨fun includes => Nat.le_trans (worse includes) le, all⟩⟩

theorem foldl_canonicalStep_eq {row : List (EntityMention × Nat)} {best : Nat × List String}
    (longest : ∀ x ∈ row, x.1.Includes e → x.1.size ≤ best.2.length) :
    row.foldl (canonicalStep e) best = best := by
  induction row with
  | nil => rfl
  | cons x rest ih =>
    obtain ⟨first, longest⟩ := List.forall_mem_cons.mp longest
    rw [List.foldl_cons]
    rcases canonicalStep_cases e best x with ⟨better, longer, -⟩ | ⟨-, step⟩
    · exact absurd (first better) (Nat.not_le_of_lt longer)
    · rw [step, ih longest]

/-- The canonical mention is one of the longest that include the mention. -/
theorem exists_canonicalPlace (here : entities[place]? = some e) :
    ∃ f, entities[canonicalPlace entities e place]? = some f ∧ IsFullest entities e f := by
  have listed : ∀ x ∈ entities.zipIdx, entities[x.2]? = some x.1 :=
    fun x mem => List.mem_zipIdx_iff_getElem?.mp mem
  obtain ⟨place', f, found, there, includes, -, all⟩ :=
    exists_foldl_canonicalStep listed here (.refl e)
  refine ⟨f, by rw [canonicalPlace, found]; exact there, includes, fun g mem => ?_⟩
  obtain ⟨i, at_i⟩ := List.getElem?_of_mem mem
  exact all (g, i) (List.mem_zipIdx_iff_getElem?.mpr at_i)

/-- The canonical mention of a mention is its own. -/
theorem IsFullest.canonicalPlace_eq (fullest : IsFullest entities e f) :
    canonicalPlace entities f place = place := by
  rw [canonicalPlace, foldl_canonicalStep_eq fun x mem includes => ?_]
  exact fullest.longest x.1 (List.fst_mem_of_mem_zipIdx mem) (includes.trans fullest.includes)

end Canonical

namespace Document

variable {doc : Document} {e : EntityMention}

/-! ## The whole list -/

/-- The entity mentions of the tags before they are linked. -/
def tagRuns (doc : Document) : List EntityMention :=
  doc.sentences.zipIdx.flatMap fun (s, i) => s.entityMentions i (doc.offset i)

/-- An entity mention goes over a run of its tag in its sentence. -/
def IsTagRun (doc : Document) (e : EntityMention) : Prop :=
  ∃ s start stop, doc.sentences[e.sentence]? = some s ∧
    IsRun Token.ner s.tokens start stop e.entityType ∧
    (e.entityType ≠ "" ∧ e.entityType ≠ "O") ∧ e.text = s.spanText start stop ∧
    e.tokenBegin = doc.offset e.sentence + start ∧ e.tokenEnd = doc.offset e.sentence + stop

theorem mem_tagRuns_iff : e ∈ doc.tagRuns ↔ doc.IsTagRun e ∧ e.canonical? = none := by
  rw [tagRuns, List.mem_flatMap]
  constructor
  · rintro ⟨⟨s, i⟩, mem, made⟩
    obtain ⟨start, stop, run, tagged, same⟩ := mem_entityMentions_iff.mp made
    have here := List.mem_zipIdx_iff_getElem?.mp mem
    rw [same]
    exact ⟨⟨s, start, stop, here, run, tagged, rfl, rfl, rfl⟩, rfl⟩
  · rintro ⟨⟨s, start, stop, here, run, tagged, text, begins, ends⟩, unlinked⟩
    refine ⟨(s, e.sentence), List.mem_zipIdx_iff_getElem?.mpr here,
      mem_entityMentions_iff.mpr ⟨start, stop, run, tagged, ?_⟩⟩
    obtain ⟨⟩ := e
    simp_all

theorem IsTagRun.bounds (run : doc.IsTagRun e) : ∃ s, doc.sentences[e.sentence]? = some s ∧
    doc.offset e.sentence ≤ e.tokenBegin ∧ e.tokenBegin < e.tokenEnd ∧
    e.tokenEnd ≤ doc.offset e.sentence + s.length := by
  obtain ⟨s, start, stop, here, run, -, -, begins, ends⟩ := run
  have nonempty := run.nonempty
  have inside : stop ≤ s.length := run.stop_le
  exact ⟨s, here, by omega, by omega, by omega⟩

/-- Runs come in the order of the text. -/
theorem tagRuns_ordered (doc : Document) :
    doc.tagRuns.Pairwise fun e f => e.tokenEnd ≤ f.tokenBegin := by
  refine List.pairwise_flatMap.mpr ⟨fun entry _ => ?_, ?_⟩
  · refine List.pairwise_map.mpr (((cut_tagRuns entry.1.tokens).ordered.filter _).imp ?_)
    intro r r' apart
    exact Nat.add_le_add_left apart _
  · refine (zipIdx_ascending doc.sentences).imp_of_mem ?_
    intro (s, i) (s', j) mem _ earlier e made f made'
    obtain ⟨start, stop, run, -, same⟩ := mem_entityMentions_iff.mp made
    obtain ⟨start', stop', -, -, same'⟩ := mem_entityMentions_iff.mp made'
    have inside : stop ≤ s.length := run.stop_le
    have apart := offset_add_length_le_offset (List.mem_zipIdx_iff_getElem?.mp mem) earlier
    rw [same, same']
    show doc.offset i + stop ≤ doc.offset j + start'
    dsimp only at apart
    omega

/-- Every token with a tag is in a run. -/
theorem exists_tagRun {token : Nat} {t : Token} (here : doc.token? token = some t)
    (tagged : t.ner ≠ "" ∧ t.ner ≠ "O") :
    ∃ e ∈ doc.tagRuns, e.entityType = t.ner ∧ e.tokenBegin ≤ token ∧ token < e.tokenEnd := by
  have inside : token < doc.tokenCount := by
    rw [← length_tokens]
    exact (List.getElem?_eq_some_iff.mp here).1
  obtain ⟨i, j, address⟩ := doc.exists_address inside
  rw [address.token?] at here
  obtain ⟨s, sentence, place, rfl⟩ := address
  rw [tokenAt?, sentence, Option.bind_some] at here
  obtain ⟨⟨start, stop, tag⟩, mem, behind, before⟩ :=
    (cut_tagRuns s.tokens).exists_covering (Nat.zero_le j) (by rw [Nat.zero_add]; exact place)
  have run := (cut_tagRuns s.tokens).mem_iff.mp mem
  have same := run.alike j behind before
  rw [here, Option.map_some, Option.some.injEq] at same
  subst same
  refine ⟨⟨s.spanText start stop, i, doc.offset i + start, doc.offset i + stop, t.ner, none⟩,
    mem_tagRuns_iff.mpr ⟨⟨s, start, stop, sentence, run, tagged, rfl, rfl, rfl⟩, rfl⟩, rfl, ?_, ?_⟩
  · exact Nat.add_le_add_left behind _
  · exact Nat.add_lt_add_left before _

/-- The entity mentions that the tags of a document make. -/
structure TaggedEntities (doc : Document) (entities : List EntityMention) : Prop where
  /-- Each goes over a run of one tag in a sentence. -/
  runs : ∀ e ∈ entities, doc.IsTagRun e
  /-- There is one for every run of a tag. -/
  every : ∀ (i : Nat) (s : Sentence) (start stop : Nat) (tag : String),
    doc.sentences[i]? = some s → IsRun Token.ner s.tokens start stop tag → tag ≠ "" → tag ≠ "O" →
    ∃ e ∈ entities, e.sentence = i ∧ e.tokenBegin = doc.offset i + start ∧
      e.tokenEnd = doc.offset i + stop ∧ e.entityType = tag
  ordered : entities.Pairwise fun e f => e.tokenEnd ≤ f.tokenBegin
  /-- A token with a tag is in one of them and in no other. -/
  covered : ∀ (token : Nat) (t : Token), doc.token? token = some t → t.ner ≠ "" → t.ner ≠ "O" →
    ∃ (i : Nat) (e : EntityMention), entities[i]? = some e ∧ e.entityType = t.ner ∧
      (e.tokenBegin ≤ token ∧ token < e.tokenEnd) ∧
      ∀ (j : Nat) (f : EntityMention), entities[j]? = some f →
        f.tokenBegin ≤ token ∧ token < f.tokenEnd → j = i
  /-- The canonical mention of each is one of the longest that include it, and is its own. -/
  canonical : ∀ e ∈ entities, ∃ (i : Nat) (f : EntityMention), e.canonical? = some i ∧
    entities[i]? = some f ∧ IsFullest entities e f ∧ f.canonical? = some i

/-- The tags of a document make its entity mentions. -/
theorem entityMentions_tagged (doc : Document) : doc.TaggedEntities doc.entityMentions := by
  have entities : doc.entityMentions = linkCanonical doc.tagRuns := rfl
  rw [entities]
  have there : ∀ {i e}, doc.tagRuns[i]? = some e →
      (linkCanonical doc.tagRuns)[i]? = some (linked doc.tagRuns (e, i)) := by
    intro i e here
    rw [getElem?_linkCanonical, here, Option.map_some]
  have ordered : (linkCanonical doc.tagRuns).Pairwise fun e f => e.tokenEnd ≤ f.tokenBegin := by
    have ordered := doc.tagRuns_ordered
    rw [← List.zipIdx_map_fst 0 doc.tagRuns] at ordered
    rw [linkCanonical_eq]
    exact List.pairwise_map.mpr (List.pairwise_map.mp ordered)
  refine ⟨fun e mem => ?_, fun i s start stop tag sentence run named other => ?_, ordered,
    fun token t here named other => ?_, fun e mem => ?_⟩
  · obtain ⟨i, e', here, rfl⟩ := exists_of_mem_linkCanonical mem
    exact (mem_tagRuns_iff.mp (List.mem_of_getElem? here)).1
  · have mem : ⟨s.spanText start stop, i, doc.offset i + start, doc.offset i + stop, tag, none⟩ ∈
        doc.tagRuns :=
      mem_tagRuns_iff.mpr ⟨⟨s, start, stop, sentence, run, ⟨named, other⟩, rfl, rfl, rfl⟩, rfl⟩
    obtain ⟨k, here⟩ := List.getElem?_of_mem mem
    exact ⟨_, List.mem_of_getElem? (there here), rfl, rfl, rfl, rfl⟩
  · obtain ⟨e, mem, type, covers⟩ := doc.exists_tagRun here ⟨named, other⟩
    obtain ⟨i, here⟩ := List.getElem?_of_mem mem
    exact ⟨i, _, there here, type, covers, fun j f here' covers' =>
      place_eq_of_disjoint ordered here' (there here) covers' covers⟩
  · obtain ⟨i, e', here, rfl⟩ := exists_of_mem_linkCanonical mem
    obtain ⟨f, at_f, fullest⟩ := exists_canonicalPlace here
    refine ⟨_, linked doc.tagRuns (f, _), rfl, there at_f, ⟨fullest.includes, fun g mem => ?_⟩,
      congrArg some fullest.canonicalPlace_eq⟩
    obtain ⟨k, g', here', rfl⟩ := exists_of_mem_linkCanonical mem
    exact fullest.longest g' (List.mem_of_getElem? here')

end Document

end Discourse
