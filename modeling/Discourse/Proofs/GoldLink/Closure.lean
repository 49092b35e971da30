import Discourse.Proofs.GoldLink.Linking
/-!
# Links as the closure of references

The gold links of a document are all pairs of a mention and an earlier one that references
connect.  The search adds links while it changes the references it follows, so what it keeps is
stated for the mentions walked so far (`GoldOrder.Searched`): they refer backwards, and they are
linked to exactly those before them that are connected to them, by whatever path.  A mention that
ends without antecedent starts a component of its own; any other joins that of its antecedent, whose
links are complete by then.
-/

namespace Discourse

open Relation

namespace LinkState

/-- A mention that refers to nothing is connected to none of those that refer among themselves. -/
theorem not_connected_of_root {st : LinkState} {done : List MentionId}
    (closed : ∀ x ∈ done, ∀ y, st.Refers x y → y ∈ done) {id : MentionId}
    (root : st.antecedent? id = none) (outside : id ∉ done) {y : MentionId} (mem : y ∈ done) :
    ¬ st.Connected y id := by
  intro connected
  have inside : ∀ z, ReflTransGen st.Refers y z → z ∈ done := by
    intro z path
    induction path with
    | refl => exact mem
    | tail _ step ih => exact closed _ ih _ step
  -- the common end is the mention itself, since no reference leads on from it
  obtain ⟨z, fromY, fromId⟩ := connected.join
  rcases fromId.cases_head with rfl | ⟨w, step, -⟩
  · exact outside (inside id fromY)
  · cases root.symm.trans step

end LinkState

namespace GoldOrder

/-- What holds of the search when it has walked some of the mentions. -/
structure Searched (order : GoldOrder) (given : LinkState) (done : List MentionId)
    (st : LinkState) : Prop where
  connected : ∀ x y, st.Connected x y ↔ given.Connected x y
  backward : ∀ x ∈ done, ∀ y, st.Refers x y → order.Before y x
  placed : ∀ x y, st.Refers x y → ∃ place, order.positions.find? x = some place
  linked : ∀ x ∈ done, ∀ y, y ∈ st.linksOf x ↔ order.Before y x ∧ st.Connected y x
  unlinked : ∀ x, x ∉ done → st.linksOf x = []
  recorded : st.Recorded

namespace Searched

variable {order : GoldOrder} {given st st' : LinkState} {done rest : List MentionId}
  {id target : MentionId} {src place : Position}

/-- Turning at a mention touches nothing that was walked before it. -/
theorem turned (h : order.Searched given done st) (walked : ∀ y, y ∈ done ↔ order.Before y id)
    (here : order.positions.find? id = some src) (t : order.Turned id st st') :
    order.Searched given done st' where
  connected x y := (t.connected x y).trans (h.connected x y)
  backward := by
    intro x mem y step
    have before := (walked x).mp mem
    have ne : x ≠ id := fun e => Before.irrefl id (e ▸ before)
    refine h.backward x mem y ?_
    rw [LinkState.Refers, ← t.kept x ne before.asymm]
    exact step
  placed := by
    intro x y step
    by_cases ne : x = id
    · exact ⟨src, ne ▸ here⟩
    · by_cases after : order.Before id x
      · exact after.placed_right
      · refine h.placed x y ?_
        rw [LinkState.Refers, ← t.kept x ne after]
        exact step
  linked := by
    intro x mem y
    rw [LinkState.linksOf, t.linked, t.connected]
    exact h.linked x mem y
  unlinked := by
    intro x out
    rw [LinkState.linksOf, t.linked]
    exact h.unlinked x out
  recorded := by
    refine ⟨fun x y => ?_, t.found ▸ h.recorded.once⟩
    rw [t.found, LinkState.linksOf, t.linked]
    exact h.recorded.found x y

/-- A mention that ends without antecedent has nothing before it that is connected to it. -/
theorem root (h : order.Searched given done st) (walked : ∀ y, y ∈ done ↔ order.Before y id)
    (none : st.antecedent? id = none) : order.Searched given (done ++ [id]) st where
  connected := h.connected
  placed := h.placed
  recorded := h.recorded
  backward := by
    refine List.forall_mem_append.mpr ⟨h.backward, List.forall_mem_singleton.mpr ?_⟩
    intro y step
    cases none.symm.trans step
  linked := by
    refine List.forall_mem_append.mpr ⟨h.linked, List.forall_mem_singleton.mpr ?_⟩
    intro y
    have outside : id ∉ done := fun mem => Before.irrefl id ((walked id).mp mem)
    have closed : ∀ x ∈ done, ∀ y, st.Refers x y → y ∈ done := by
      intro x mem y step
      exact (walked y).mpr ((h.backward x mem y step).trans ((walked x).mp mem))
    rw [h.unlinked id outside]
    constructor
    · exact fun mem => absurd mem List.not_mem_nil
    · rintro ⟨before, connected⟩
      exact absurd connected
        (LinkState.not_connected_of_root closed none outside ((walked y).mpr before))
  unlinked := by
    intro x out
    exact h.unlinked x fun mem => out (List.mem_append_left _ mem)

/-- What linking to an antecedent gains is all that stands before the mention in its component:
before the antecedent, the antecedent, and between the two. -/
theorem component_iff (h : order.Searched given done st) (law : order.Lawful)
    (walked : ∀ y, y ∈ done ↔ order.Before y id) (here : order.positions.find? id = some src)
    (there : order.positions.find? target = some place) (refers : st.Refers id target)
    (before : order.Before target id) (y : MentionId) :
    (y = target ∨ y ∈ st.linksOf target ∨
        y ∈ order.between place src ∧ target ∈ st.linksOf y) ↔
      order.Before y id ∧ st.Connected y id := by
  rw [h.linked target ((walked target).mpr before), law.mem_between_iff there here]
  constructor
  · rintro (rfl | ⟨first, connected⟩ | ⟨-, links⟩)
    · exact ⟨before, refers.connected.symm⟩
    · exact ⟨first.trans before, connected.trans refers.connected.symm⟩
    · -- only what was walked is linked to anything yet
      have mem : y ∈ done := by
        by_contra out
        rw [h.unlinked y out] at links
        exact List.not_mem_nil links
      obtain ⟨-, connected⟩ := (h.linked y mem target).mp links
      exact ⟨(walked y).mp mem, connected.symm.trans refers.connected.symm⟩
  · rintro ⟨first, connected⟩
    have joined : st.Connected y target := connected.trans refers.connected
    obtain ⟨p, atY⟩ := first.placed_left
    rcases law.before_total atY there with earlier | rfl | later
    · exact .inr (.inl ⟨earlier, joined⟩)
    · exact .inl rfl
    · refine .inr (.inr ⟨⟨⟨p, atY⟩, later.asymm, first.asymm⟩, ?_⟩)
      exact (h.linked y ((walked y).mpr first) target).mpr ⟨later, joined.symm⟩

/-- A mention that refers backwards is linked to all before it that are connected to it. -/
theorem link (h : order.Searched given done st) (law : order.Lawful)
    (walked : ∀ y, y ∈ done ↔ order.Before y id) (here : order.positions.find? id = some src)
    (there : order.positions.find? target = some place) (refers : st.Refers id target)
    (before : order.Before target id) :
    order.Searched given (done ++ [id]) (st.linkTo id target (order.between place src)) := by
  have outside : id ∉ done := fun mem => Before.irrefl id ((walked id).mp mem)
  have targetDone : target ∈ done := (walked target).mpr before
  have fresh : target ∉ st.linksOf id := by
    rw [h.unlinked id outside]
    exact List.not_mem_nil
  have apart : target ∉ st.linksOf target := fun mem =>
    Before.irrefl target ((h.linked target targetDone target).mp mem).1
  have ne : target ≠ id := fun e => outside (e ▸ targetDone)
  have gains := LinkState.mem_linksOf_linkTo_iff ne fresh apart (order.between place src)
  refine ⟨?_, ?_, ?_, ?_, ?_, h.recorded.linkTo id target _⟩
  · rw [LinkState.connected_linkTo]
    exact h.connected
  · rw [LinkState.refers_linkTo]
    refine List.forall_mem_append.mpr ⟨h.backward, List.forall_mem_singleton.mpr ?_⟩
    intro y step
    cases refers.symm.trans step
    exact before
  · rw [LinkState.refers_linkTo]
    exact h.placed
  · rw [LinkState.connected_linkTo]
    refine List.forall_mem_append.mpr ⟨fun x mem y => ?_, List.forall_mem_singleton.mpr fun y => ?_⟩
    · have other : x ≠ id := fun e => outside (e ▸ mem)
      rw [gains, h.linked x mem]
      simp [other]
    · rw [gains, h.unlinked id outside, h.component_iff law walked here there refers before]
      simp
  · intro x out
    obtain ⟨notDone, notId⟩ := not_or.mp (List.mem_append.not.mp out)
    refine List.eq_nil_iff_forall_not_mem.mpr fun y mem => ?_
    rcases (gains x y).mp mem with mem | ⟨rfl, -⟩
    · rw [h.unlinked x notDone] at mem
      exact List.not_mem_nil mem
    · exact notId (List.mem_singleton.mpr rfl)

end Searched

/-- A visit turns the chain of a mention, and links the mention if an antecedent is left. -/
theorem visit_cases {order : GoldOrder} (law : order.Lawful) {id : MentionId} {src : Position}
    (here : order.positions.find? id = some src) {st st' : LinkState}
    (ok : order.visit st id = .ok st') :
    ∃ mid, order.Turned id st mid ∧
      (mid.antecedent? id = none ∧ st' = mid ∨
        ∃ target place, mid.Refers id target ∧ order.Before target id ∧
          order.positions.find? target = some place ∧
          st' = mid.linkTo id target (order.between place src)) := by
  unfold visit at ok
  rw [here] at ok
  cases first : st.antecedent? id with
  | none =>
    rw [first] at ok
    cases ok
    exact ⟨st, .refl st, .inl ⟨first, rfl⟩⟩
  | some start =>
    simp only [first, bind_eq_ok_iff, Prod.exists] at ok
    obtain ⟨target?, mid, turn, ok⟩ := ok
    obtain ⟨turned, ends, notLater⟩ := turnChain_turned here first turn
    refine ⟨mid, turned, ?_⟩
    cases target? with
    | none =>
      cases ok
      exact .inl ⟨ends, rfl⟩
    | some target =>
      simp only at ok
      split at ok
      next => cases ok
      next ne =>
        rw [bind_eq_ok_iff] at ok
        obtain ⟨place, there, ok⟩ := ok
        rw [position_eq_ok_iff] at there
        cases ok
        refine .inr ⟨target, place, ends, ?_, there, rfl⟩
        obtain ⟨place', there', low⟩ := notLater target rfl
        cases there.symm.trans there'
        rcases law.before_total there here with before | e | after
        · exact before
        · exact absurd e ne
        · obtain ⟨p, q, hp, hq, lt⟩ := after
          cases here.symm.trans hp
          cases there.symm.trans hq
          exact absurd lt low

namespace Searched

variable {order : GoldOrder} {given st st' : LinkState} {done rest : List MentionId}
  {id : MentionId}

theorem visit (h : order.Searched given done st) (law : order.Lawful)
    (ids : order.listed.map Prod.fst = done ++ id :: rest) (ok : order.visit st id = .ok st') :
    order.Searched given (done ++ [id]) st' := by
  have walked := law.mem_walked_iff ids
  obtain ⟨src, here⟩ : ∃ src, order.positions.find? id = some src := by
    rw [← law.mem_ids_iff, ids]
    simp
  obtain ⟨mid, turned, outcome⟩ := visit_cases law here ok
  have h := h.turned walked here turned
  rcases outcome with ⟨none, rfl⟩ | ⟨target, place, refers, before, there, rfl⟩
  · exact h.root walked none
  · exact h.link law walked here there refers before

theorem run (h : order.Searched given done st) (law : order.Lawful)
    (ids : order.listed.map Prod.fst = done ++ rest) (ok : rest.foldlM order.visit st = .ok st') :
    order.Searched given (order.listed.map Prod.fst) st' := by
  induction rest generalizing done st with
  | nil =>
    cases ok
    rw [List.append_nil] at ids
    exact ids ▸ h
  | cons id rest ih =>
    rw [List.foldlM_cons, bind_eq_ok_iff] at ok
    obtain ⟨mid, first, ok⟩ := ok
    have ids' : order.listed.map Prod.fst = (done ++ [id]) ++ rest := by
      rw [ids, List.append_assoc, List.singleton_append]
    exact ih (h.visit law ids first) ids' ok

/-- When all listed mentions are walked no reference leads out of them. -/
theorem mem_iff_of_connected (h : order.Searched given done st)
    (all : ∀ id, id ∈ done ↔ ∃ place, order.positions.find? id = some place) {x y : MentionId}
    (connected : st.Connected x y) : x ∈ done ↔ y ∈ done := by
  have both : ∀ x y, st.Refers x y → x ∈ done ∧ y ∈ done := by
    intro x y step
    have mem := (all x).mpr (h.placed x y step)
    exact ⟨mem, (all y).mpr (h.backward x mem y step).placed_left⟩
  induction connected with
  | rel x y step => exact iff_of_true (both x y step).1 (both x y step).2
  | refl x => exact .rfl
  | symm x y _ ih => exact ih.symm
  | trans x y z _ _ ih ih' => exact ih.trans ih'

end Searched

theorem search_searched {order : GoldOrder} (law : order.Lawful)
    {antecedents : Table MentionId (Option MentionId)} {st : LinkState}
    (placed : ∀ x y, ({ antecedents } : LinkState).Refers x y →
      ∃ place, order.positions.find? x = some place)
    (ok : order.search antecedents = .ok st) :
    order.Searched { antecedents } (order.listed.map Prod.fst) st := by
  have start : order.Searched { antecedents } [] { antecedents } :=
    { connected := fun _ _ => .rfl
      backward := fun _ mem => absurd mem List.not_mem_nil
      placed := placed
      linked := fun _ mem => absurd mem List.not_mem_nil
      unlinked := fun _ _ => rfl
      recorded := ⟨fun _ _ => by simp [LinkState.linksOf], List.nodup_nil⟩ }
  exact start.run law rfl ok

end GoldOrder

/-! ## The links of a document -/

namespace Document

/-- The rows of gold mentions, none if there are no gold data. -/
def goldRows (doc : Document) : List (List MentionId) := doc.gold?.getD []

/-- One gold mention stands before another. -/
def GoldBefore (doc : Document) : MentionId → MentionId → Prop := EarlierIn doc.goldRows

/-- The antecedent that the data of a gold mention name. -/
def RefersTo (doc : Document) (x y : MentionId) : Prop :=
  (doc.goldMentions.find? x).bind Mention.antecedent? = some y

/-- Antecedents lead from one gold mention to the other, each taken in either direction. -/
def GoldConnected (doc : Document) : MentionId → MentionId → Prop := EqvGen doc.RefersTo

theorem refers_givenAntecedents_iff (doc : Document) (listed : List MentionId) (x y : MentionId) :
    ({ antecedents := doc.givenAntecedents listed } : LinkState).Refers x y ↔
      x ∈ listed ∧ doc.RefersTo x y := by
  rw [LinkState.Refers, LinkState.antecedent?, givenAntecedents, Table.find?_ofList_map]
  by_cases mem : x ∈ listed
  · simp [mem, RefersTo]
  · simp [mem]

/-- If references of listed mentions lead to listed ones, those that are not listed connect
nothing that the listed ones do not. -/
theorem connected_givenAntecedents_iff {doc : Document} {listed : List MentionId}
    (closed : ∀ x ∈ listed, ∀ y, doc.RefersTo x y → y ∈ listed) {x y : MentionId}
    (hx : x ∈ listed) (hy : y ∈ listed) :
    ({ antecedents := doc.givenAntecedents listed } : LinkState).Connected x y ↔
      doc.GoldConnected x y := by
  have given := doc.refers_givenAntecedents_iff listed
  have path : ∀ x ∈ listed, ∀ z, ReflTransGen doc.RefersTo x z →
      z ∈ listed ∧
        ({ antecedents := doc.givenAntecedents listed } : LinkState).Connected x z := by
    intro x mem z path
    induction path with
    | refl => exact ⟨mem, .refl _ x⟩
    | @tail y z _ step ih =>
      obtain ⟨inside, connected⟩ := ih
      have edge := LinkState.Refers.connected ((given y z).mpr ⟨inside, step⟩)
      exact ⟨closed y inside z step, connected.trans edge⟩
  constructor
  · exact EqvGen.mono (fun a b step => ((given a b).mp step).2) x y
  · intro connected
    have functional : ∀ a b c, doc.RefersTo a b → doc.RefersTo a c → b = c :=
      fun _ _ _ hb hc => Option.some.inj (hb.symm.trans hc)
    obtain ⟨z, fromX, fromY⟩ := join_of_eqvGen functional connected
    exact (path x hx z fromX).2.trans (path y hy z fromY).2.symm

/-! ## The extraction -/

/-- The gold mentions with the antecedents of a table. -/
def withReferences (goldMentions : Table MentionId Mention)
    (antecedents : Table MentionId (Option MentionId)) : Table MentionId Mention :=
  antecedents.entries.foldl (fun t (id, antecedent?) => t.modify id fun m => { m with antecedent? })
    goldMentions

/-- The document with the references of its gold mentions taken from a table. -/
def rewrite (doc : Document) (antecedents : Table MentionId (Option MentionId)) : Document :=
  { doc with goldMentions := withReferences doc.goldMentions antecedents }

/-- The document with the links remembered. -/
def remember (doc : Document) (links : List (MentionId × MentionId)) : Document :=
  { doc with goldLinks? := some links }

theorem extractGoldLinks_eq (doc : Document) :
    doc.extractGoldLinks =
      match doc.goldLinks? with
      | some links => .ok (links, doc)
      | none =>
        match doc.gold? with
        | none => .ok ([], doc.remember [])
        | some rows => do
          let st ← (GoldOrder.ofRows rows).search (doc.givenAntecedents rows.flatten)
          return (st.found.reverse, (doc.rewrite st.antecedents).remember st.found.reverse) :=
  rfl

/-- A first extraction that succeeds writes back what its search has turned. -/
theorem extractGoldLinks_eq_ok {doc doc' : Document} {links : List (MentionId × MentionId)}
    (first : doc.goldLinks? = none) (ok : doc.extractGoldLinks = .ok (links, doc')) :
    ∃ st, (GoldOrder.ofRows doc.goldRows).search
        (doc.givenAntecedents doc.goldRows.flatten) = .ok st ∧ links = st.found.reverse ∧
      doc' = (doc.rewrite st.antecedents).remember links := by
  simp only [extractGoldLinks_eq, first] at ok
  cases rows : doc.gold? with
  | none =>
    have nothing : doc.goldRows = [] := by rw [goldRows, rows, Option.getD_none]
    rw [rows] at ok
    cases ok
    exact ⟨_, by rw [nothing]; rfl, rfl, rfl⟩
  | some rows' =>
    have same : doc.goldRows = rows' := by rw [goldRows, rows, Option.getD_some]
    simp only [rows, bind_eq_ok_iff] at ok
    obtain ⟨st, search, ok⟩ := ok
    cases ok
    exact ⟨st, same ▸ search, rfl, rfl⟩

section Search

variable {doc : Document} {st : LinkState}

theorem searched_of_search (once : doc.goldRows.flatten.Nodup)
    (search : (GoldOrder.ofRows doc.goldRows).search
      (doc.givenAntecedents doc.goldRows.flatten) = .ok st) :
    (GoldOrder.ofRows doc.goldRows).Searched
      { antecedents := doc.givenAntecedents doc.goldRows.flatten } doc.goldRows.flatten st := by
  have placed : ∀ x y,
      ({ antecedents := doc.givenAntecedents doc.goldRows.flatten } : LinkState).Refers x y →
        ∃ place, (GoldOrder.ofRows doc.goldRows).positions.find? x = some place := by
    intro x y step
    rw [refers_givenAntecedents_iff] at step
    exact (GoldOrder.Lawful.mem_flatten_iff once x).mp step.1
  have ids : (GoldOrder.ofRows doc.goldRows).listed.map Prod.fst = doc.goldRows.flatten :=
    map_fst_withPositions doc.goldRows
  rw [← ids] at placed search ⊢
  exact GoldOrder.search_searched (GoldOrder.lawful_ofRows once) placed search

/-- A search that succeeds has found every antecedent among the listed mentions. -/
theorem mem_of_refersTo (once : doc.goldRows.flatten.Nodup)
    (search : (GoldOrder.ofRows doc.goldRows).search
      (doc.givenAntecedents doc.goldRows.flatten) = .ok st)
    {x y : MentionId} (mem : x ∈ doc.goldRows.flatten) (step : doc.RefersTo x y) :
    y ∈ doc.goldRows.flatten := by
  have searched := searched_of_search once search
  have edge := LinkState.Refers.connected
    ((doc.refers_givenAntecedents_iff doc.goldRows.flatten x y).mpr ⟨mem, step⟩)
  have all := GoldOrder.Lawful.mem_flatten_iff once
  exact (searched.mem_iff_of_connected all ((searched.connected x y).mpr edge)).mp mem

/-- The links found are all pairs of a gold mention and an earlier one that antecedents connect. -/
theorem mem_found_iff (once : doc.goldRows.flatten.Nodup)
    (search : (GoldOrder.ofRows doc.goldRows).search
      (doc.givenAntecedents doc.goldRows.flatten) = .ok st) (x y : MentionId) :
    (y, x) ∈ st.found ↔ doc.GoldBefore x y ∧ doc.GoldConnected x y := by
  have searched := searched_of_search once search
  rw [searched.recorded.found, GoldBefore, ← GoldOrder.before_ofRows_iff once]
  by_cases mem : y ∈ doc.goldRows.flatten
  · rw [searched.linked y mem]
    refine and_congr_right fun before => ?_
    have mem' := (GoldOrder.Lawful.mem_flatten_iff once x).mpr before.placed_left
    rw [searched.connected,
      connected_givenAntecedents_iff (fun _ mem _ => mem_of_refersTo once search mem) mem' mem]
  · rw [searched.unlinked y mem]
    constructor
    · exact fun mem => absurd mem List.not_mem_nil
    · rintro ⟨before, -⟩
      exact absurd ((GoldOrder.Lawful.mem_flatten_iff once y).mpr before.placed_right) mem

end Search

/-- The links of a first extraction are all pairs of a gold mention and an earlier one that
antecedents connect, each once. -/
theorem extractGoldLinks_closure {doc doc' : Document} {links : List (MentionId × MentionId)}
    (first : doc.goldLinks? = none) (once : doc.goldRows.flatten.Nodup)
    (ok : doc.extractGoldLinks = .ok (links, doc')) :
    links.Nodup ∧
      ∀ x y, (y, x) ∈ links ↔ doc.GoldBefore x y ∧ doc.GoldConnected x y := by
  obtain ⟨st, search, rfl, -⟩ := extractGoldLinks_eq_ok first ok
  have searched := searched_of_search once search
  refine ⟨List.nodup_reverse.mpr searched.recorded.once, fun x y => ?_⟩
  rw [List.mem_reverse]
  exact mem_found_iff once search x y

/-- A document of gold rows whose mentions name the given antecedents. -/
def ofAntecedents (rows : List (List (MentionId × Option MentionId))) : Document :=
  { ofSentences "" [] with
    gold? := some (rows.map (·.map Prod.fst))
    goldMentions := Table.ofList (rows.flatten.map fun (id, antecedent?) =>
      (id, { id, antecedent?, sentence := 0, start := id, stop := id + 1, head := id })) }

/-- The first mention refers forward, two share it as antecedent, and the fourth inherits all that
its own antecedent is linked to. -/
theorem extractGoldLinks_closure_mixed :
    let doc := ofAntecedents [[(0, some 2), (1, some 0)], [(2, none), (3, some 2), (4, none)]]
    let links := [(1, 0), (2, 1), (2, 0), (3, 2), (3, 1), (3, 0)]
    doc.goldLinks? = none ∧ doc.goldRows.flatten.Nodup ∧
      (∃ doc', doc.extractGoldLinks = .ok (links, doc')) ∧ links.Nodup ∧
      ∀ x y, (y, x) ∈ links ↔ doc.GoldBefore x y ∧ doc.GoldConnected x y := by
  intro doc links
  have first : doc.goldLinks? = none := rfl
  have once : doc.goldRows.flatten.Nodup := by decide
  have search : doc.extractGoldLinks.map Prod.fst = .ok links := by decide +kernel
  have ok : ∃ doc', doc.extractGoldLinks = .ok (links, doc') := by
    cases found : doc.extractGoldLinks with
    | error fault =>
      rw [found] at search
      cases search
    | ok result =>
      rw [found] at search
      have same : result.1 = links := Except.ok.inj search
      exact ⟨result.2, by rw [← same]⟩
  obtain ⟨doc', found⟩ := ok
  exact ⟨first, once, ⟨doc', found⟩, extractGoldLinks_closure first once found⟩

end Document

end Discourse
