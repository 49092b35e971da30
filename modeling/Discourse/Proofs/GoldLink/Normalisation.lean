import Discourse.Proofs.GoldLink.Success
import Discourse.Proofs.Mention.Identity
/-!
# References rewritten

A first extraction writes the references back as the search has turned them.  They then all lead to
earlier mentions and connect what the given ones connected, so another extraction finds the same
links (`Normalised`).

The search has an antecedent, or none, for every listed mention and for no other
(`GoldOrder.Searched.keys`), so what is written back replaces the references of the listed mentions
as a whole.  The connections of the document are then those of the search and of the mentions that
are not listed, and the search has kept its own.

`extractInPlace` changes a document where it stands, one mention after the other, and keeps what it
has changed when it fails.  It comes to the same (`run_extractInPlace`), because all that can fail
is the search and that works on antecedents of its own.
-/

namespace Discourse

open Relation

/-- Edges that connect what they join, in other edges, connect nothing more. -/
theorem eqvGen_of_le {α : Type} {r s : α → α → Prop} (le : ∀ x y, r x y → EqvGen s x y) {x y : α}
    (h : EqvGen r x y) : EqvGen s x y :=
  (EqvGen.is_equivalence s).eqvGen_iff.mp (EqvGen.mono le x y h)

/-! ## The mentions that the search has antecedents for -/

namespace LinkState

/-- The state has an antecedent, or none, for exactly the mentions of the order. -/
def Covers (order : GoldOrder) (st : LinkState) : Prop :=
  ∀ x, x ∈ st.antecedents.keys ↔ order.Places x

theorem Covers.turn {order : GoldOrder} {st : LinkState} (h : st.Covers order)
    {id target : MentionId} (here : order.Places id) (there : order.Places target) :
    (st.turn id target).Covers order := by
  intro x
  rw [LinkState.turn, Table.mem_keys_insert, Table.mem_keys_insert, h x]
  constructor
  · rintro (rfl | rfl | listed)
    · exact there
    · exact here
    · exact listed
  · exact fun listed => .inr (.inr listed)

end LinkState

namespace GoldOrder

variable {order : GoldOrder}

theorem covers_turnChain {id : MentionId} {src : Position}
    (here : order.positions.find? id = some src) {steps : Nat} {met : List MentionId}
    {target : MentionId} {st st' : LinkState} {target? : Option MentionId}
    (h : st.Covers order) (ok : order.turnChain id src steps met target st = .ok (target?, st')) :
    st'.Covers order := by
  -- every target that is turned has been looked up, so it is listed
  induction steps generalizing met target st with
  | zero => cases ok
  | succ steps ih =>
    simp only [turnChain, bind_eq_ok_iff] at ok
    obtain ⟨place, found, ok⟩ := ok
    rw [position_eq_ok_iff] at found
    have turned : (st.turn id target).Covers order := h.turn ⟨src, here⟩ ⟨place, found⟩
    split at ok
    · cases ok
      exact h
    · split at ok
      · cases ok
      · split at ok
        · cases ok
          exact turned
        · exact ih turned ok

theorem covers_visit {st st' : LinkState} {id : MentionId} (h : st.Covers order)
    (ok : order.visit st id = .ok st') : st'.Covers order := by
  unfold visit at ok
  split at ok
  next src first here _ =>
    simp only [bind_eq_ok_iff, Prod.exists] at ok
    obtain ⟨target?, mid, chain, ok⟩ := ok
    have turned := covers_turnChain here h chain
    cases target? with
    | none =>
      cases ok
      exact turned
    | some target =>
      simp only at ok
      split at ok
      · cases ok
      · rw [bind_eq_ok_iff] at ok
        obtain ⟨place, -, ok⟩ := ok
        cases ok
        intro x
        rw [LinkState.antecedents_linkTo]
        exact turned x
  next =>
    cases ok
    exact h

theorem covers_foldlM_visit {ids : List MentionId} {st st' : LinkState} (h : st.Covers order)
    (ok : ids.foldlM order.visit st = .ok st') : st'.Covers order := by
  induction ids generalizing st with
  | nil =>
    cases ok
    exact h
  | cons id rest ih =>
    rw [List.foldlM_cons, bind_eq_ok_iff] at ok
    obtain ⟨mid, first, ok⟩ := ok
    exact ih (covers_visit h first) ok

end GoldOrder

/-- A mention without its antecedent. -/
def Mention.unreferred (m : Mention) : Mention := { m with antecedent? := none }

namespace Document

theorem keys_givenAntecedents (doc : Document) (listed : List MentionId) (x : MentionId) :
    x ∈ (doc.givenAntecedents listed).keys ↔ x ∈ listed := by
  rw [Table.mem_keys_iff, givenAntecedents, Table.find?_ofList_map]
  split <;> simp_all

/-- The search ends with an antecedent, or none, for every listed mention and for no other. -/
theorem keys_antecedents_of_search {doc : Document} {st : LinkState}
    (once : doc.goldRows.flatten.Nodup)
    (search : (GoldOrder.ofRows doc.goldRows).search
      (doc.givenAntecedents doc.goldRows.flatten) = .ok st) (x : MentionId) :
    x ∈ st.antecedents.keys ↔ x ∈ doc.goldRows.flatten := by
  have start : LinkState.Covers (GoldOrder.ofRows doc.goldRows)
      { antecedents := doc.givenAntecedents doc.goldRows.flatten } := by
    intro y
    rw [keys_givenAntecedents, GoldOrder.Lawful.mem_flatten_iff once, GoldOrder.Places]
  rw [GoldOrder.covers_foldlM_visit start search x, GoldOrder.Lawful.mem_flatten_iff once,
    GoldOrder.Places]

/-! ## Writing the references back -/

theorem find?_withReferences (goldMentions : Table MentionId Mention)
    (antecedents : Table MentionId (Option MentionId)) (id : MentionId) :
    (withReferences goldMentions antecedents).find? id =
      if id ∈ antecedents.keys then
        (goldMentions.find? id).map fun m =>
          { m with antecedent? := (antecedents.find? id).join }
      else goldMentions.find? id := by
  have byKey : withReferences goldMentions antecedents =
      antecedents.keys.foldl (fun t key => t.modify key fun m =>
        { m with antecedent? := (antecedents.find? key).join }) goldMentions := by
    rw [withReferences, Table.keys, List.foldl_map]
    refine List.foldl_ext _ _ _ fun t entry mem => ?_
    rw [(antecedents.mem_entries_iff entry.1 entry.2).mp mem]
    rfl
  rw [byKey]
  exact Table.find?_foldl_modify (fun key (m : Mention) =>
    { m with antecedent? := (antecedents.find? key).join }) (fun _ _ => rfl) _ _ _

/-- Every listed gold mention has its data. -/
def GoldEntered (doc : Document) : Prop :=
  ∀ id ∈ doc.goldRows.flatten, id ∈ doc.goldMentions.keys

instance (doc : Document) : Decidable doc.GoldEntered :=
  inferInstanceAs (Decidable (∀ id ∈ doc.goldRows.flatten, id ∈ doc.goldMentions.keys))

theorem goldEntered_ofSentences (id : String) (sentences : List Sentence) :
    (ofSentences id sentences).GoldEntered :=
  fun _ mem => absurd mem List.not_mem_nil

/-- Gold mentions come into a document with their data. -/
theorem GoldEntered.addGoldMention {doc : Document} (h : doc.GoldEntered) (m : Mention) :
    (doc.addGoldMention m).GoldEntered := by
  intro id mem
  have listed := (flatten_pushAt doc.goldRows m.sentence m.id).mem_iff.mp mem
  rw [Document.addGoldMention, Table.mem_keys_insert]
  exact (List.mem_cons.mp listed).imp_right (h id)

theorem TakenUp.goldEntered {doc d : Document} {raw : RawMentions} {count : Nat}
    {gold built filled : List Mention} (h : TakenUp doc d raw count gold built filled) :
    d.GoldEntered := by
  intro id mem
  obtain ⟨g, isGold, rfl⟩ := (h.mem_goldRows_iff id).mp mem
  rw [Table.mem_keys_iff, h.find?_goldMentions_of_mem isGold]
  rfl

section Rewritten

variable {doc doc' : Document} {st : LinkState}

theorem refersTo_rewritten_iff (entered : doc.GoldEntered)
    (keys : ∀ x, x ∈ st.antecedents.keys ↔ x ∈ doc.goldRows.flatten)
    (rewritten : doc'.goldMentions = withReferences doc.goldMentions st.antecedents)
    (x y : MentionId) :
    doc'.RefersTo x y ↔
      if x ∈ doc.goldRows.flatten then st.Refers x y else doc.RefersTo x y := by
  rw [RefersTo, rewritten, find?_withReferences]
  by_cases mem : x ∈ doc.goldRows.flatten
  · obtain ⟨m, found⟩ := Option.isSome_iff_exists.mp ((Table.mem_keys_iff ..).mp (entered x mem))
    rw [if_pos ((keys x).mpr mem), if_pos mem, found]
    exact Iff.rfl
  · rw [if_neg fun key => mem ((keys x).mp key), if_neg mem]
    exact Iff.rfl

/-- What the listed mentions connect is what the search connects, before it and after it, and the
other mentions refer as they did. -/
theorem goldConnected_rewritten_iff (once : doc.goldRows.flatten.Nodup)
    (search : (GoldOrder.ofRows doc.goldRows).search
      (doc.givenAntecedents doc.goldRows.flatten) = .ok st)
    (refers : ∀ x y, doc'.RefersTo x y ↔
      if x ∈ doc.goldRows.flatten then st.Refers x y else doc.RefersTo x y) (x y : MentionId) :
    doc'.GoldConnected x y ↔ doc.GoldConnected x y := by
  have searched := searched_of_search once search
  have given := doc.refers_givenAntecedents_iff doc.goldRows.flatten
  have listed : ∀ x y, st.Refers x y → x ∈ doc.goldRows.flatten := fun x y step =>
    (GoldOrder.Lawful.mem_flatten_iff once x).mpr (searched.placed x y step)
  constructor
  · refine eqvGen_of_le fun x y step => ?_
    rw [refers] at step
    split at step
    · exact EqvGen.mono (fun a b h => ((given a b).mp h).2) x y
        ((searched.connected x y).mp (LinkState.Refers.connected step))
    · exact .rel x y step
  · refine eqvGen_of_le fun x y step => ?_
    by_cases mem : x ∈ doc.goldRows.flatten
    · have connected := (searched.connected x y).mpr
        (LinkState.Refers.connected ((given x y).mpr ⟨mem, step⟩))
      exact EqvGen.mono (fun a b h => (refers a b).mpr (by rwa [if_pos (listed a b h)])) x y
        connected
    · exact .rel x y ((refers x y).mpr (by rwa [if_neg mem]))

end Rewritten

/-! ## References that lead backwards -/

/-- Every listed mention refers to an earlier one, if to any. -/
def RefersBackwards (doc : Document) : Prop :=
  ∀ x ∈ doc.goldRows.flatten, ∀ y, doc.RefersTo x y → doc.GoldBefore y x

namespace RefersBackwards

variable {doc : Document}

theorem goldResolved (h : doc.RefersBackwards) (once : doc.goldRows.flatten.Nodup) :
    doc.GoldResolved := by
  intro x mem y step
  have before := h x mem y step
  rw [GoldBefore, ← GoldOrder.before_ofRows_iff once] at before
  exact (GoldOrder.Lawful.mem_flatten_iff once y).mpr before.placed_left

theorem goldAcyclic (h : doc.RefersBackwards) (once : doc.goldRows.flatten.Nodup) :
    doc.GoldAcyclic := by
  intro x mem cycle
  have resolved := h.goldResolved once
  have earlier : ∀ y, TransGen doc.RefersTo x y →
      y ∈ doc.goldRows.flatten ∧ (GoldOrder.ofRows doc.goldRows).Before y x := by
    intro y path
    have before : ∀ a ∈ doc.goldRows.flatten, ∀ b, doc.RefersTo a b →
        (GoldOrder.ofRows doc.goldRows).Before b a := fun a mem b step =>
      (GoldOrder.before_ofRows_iff once b a).mpr (h a mem b step)
    induction path with
    | single step => exact ⟨resolved x mem _ step, before x mem _ step⟩
    | tail _ step ih => exact ⟨resolved _ ih.1 _ step, (before _ ih.1 _ step).trans ih.2⟩
  exact GoldOrder.Before.irrefl x (earlier x cycle).2

end RefersBackwards

/-- What a first extraction leaves: references of the listed mentions that lead backwards and
connect what they did, from which the same links are found again, and the links themselves, which
any later call gives; of the gold mentions nothing but the references has changed, and of the rest
of the document nothing at all. -/
structure Normalised (doc : Document) (links : List (MentionId × MentionId)) (doc' : Document) :
    Prop where
  backward : doc'.RefersBackwards
  connected : ∀ x y, doc'.GoldConnected x y ↔ doc.GoldConnected x y
  again : ∃ links' doc'', ({ doc' with goldLinks? := none } : Document).extractGoldLinks =
    .ok (links', doc'') ∧ links'.Perm links
  later : ∀ d : Document, d.goldLinks? = doc'.goldLinks? → d.extractGoldLinks = .ok (links, d)
  mentions : ∀ id, (doc'.goldMentions.find? id).map Mention.unreferred =
    (doc.goldMentions.find? id).map Mention.unreferred
  rest : doc' = { doc with goldMentions := doc'.goldMentions, goldLinks? := some links }

/-- Rows that agree and references that connect the same give the same links. -/
theorem found_perm_of_goldConnected_iff (doc doc' : Document) {st st' : LinkState}
    (once : doc.goldRows.flatten.Nodup) (rows : doc'.goldRows = doc.goldRows)
    (connected : ∀ x y, doc'.GoldConnected x y ↔ doc.GoldConnected x y)
    (search : (GoldOrder.ofRows doc.goldRows).search
      (doc.givenAntecedents doc.goldRows.flatten) = .ok st)
    (search' : (GoldOrder.ofRows doc'.goldRows).search
      (doc'.givenAntecedents doc'.goldRows.flatten) = .ok st') : st'.found.Perm st.found := by
  have once' : doc'.goldRows.flatten.Nodup := rows ▸ once
  refine (List.perm_ext_iff_of_nodup (searched_of_search once' search').recorded.once
    (searched_of_search once search).recorded.once).mpr fun ⟨y, x⟩ => ?_
  rw [mem_found_iff once' search', mem_found_iff once search, connected, GoldBefore, GoldBefore,
    rows]

theorem normalised_of_search {doc : Document} {st : LinkState}
    (once : doc.goldRows.flatten.Nodup) (entered : doc.GoldEntered)
    (search : (GoldOrder.ofRows doc.goldRows).search
      (doc.givenAntecedents doc.goldRows.flatten) = .ok st) :
    Normalised doc st.found.reverse ((doc.rewrite st.antecedents).remember st.found.reverse) := by
  have keys := keys_antecedents_of_search once search
  -- what is remembered decides whether there is a search, and nothing about the references
  have refers : ∀ x y, (doc.rewrite st.antecedents).RefersTo x y ↔
      if x ∈ doc.goldRows.flatten then st.Refers x y else doc.RefersTo x y :=
    refersTo_rewritten_iff entered keys rfl
  have connected : ∀ x y, (doc.rewrite st.antecedents).GoldConnected x y ↔ doc.GoldConnected x y :=
    goldConnected_rewritten_iff once search refers
  have backward : (doc.rewrite st.antecedents).RefersBackwards := by
    intro x mem y step
    have step : st.Refers x y := by
      rw [refers] at step
      exact (if_pos mem : _ = st.Refers x y) ▸ step
    exact (GoldOrder.before_ofRows_iff once y x).mp
      ((searched_of_search once search).backward x mem y step)
  refine ⟨backward, connected, ?_, ?_, fun id => ?_, rfl⟩
  · let forgotten : Document := { doc.rewrite st.antecedents with goldLinks? := none }
    have back : forgotten.RefersBackwards := backward
    obtain ⟨st', search'⟩ := (@exists_search_iff forgotten once).mpr
      ⟨back.goldResolved once, back.goldAcyclic once⟩
    obtain ⟨doc'', found⟩ := (@extractGoldLinks_of_search forgotten rfl).1 st' search'
    refine ⟨_, doc'', found, ?_⟩
    calc st'.found.reverse.Perm st'.found := List.reverse_perm _
      _ |>.Perm st.found :=
        found_perm_of_goldConnected_iff doc forgotten once rfl connected search search'
      _ |>.Perm st.found.reverse := (List.reverse_perm _).symm
  · intro d memo
    simp only [extractGoldLinks, memo, remember]
  · simp only [remember, rewrite, find?_withReferences]
    split
    · rw [Option.map_map]
      rfl
    · rfl

/-! ## A failed extraction -/

/-- One gold mention refers to another one, or to none. -/
def setReference (id : MentionId) (antecedent? : Option MentionId) (doc : Document) : Document :=
  { doc with goldMentions := doc.goldMentions.modify id fun m => { m with antecedent? } }

/-- The extraction as a program that changes the document where it stands. -/
def extractInPlace : ExceptT Fault (StateM Document) (List (MentionId × MentionId)) := do
  let doc ← get
  match doc.goldLinks? with
  | some links => return links
  | none =>
    match doc.gold? with
    | none =>
      modify fun doc => doc.remember []
      return []
    | some rows =>
      let st ← liftExcept ((GoldOrder.ofRows rows).search (doc.givenAntecedents rows.flatten))
      st.antecedents.entries.forM fun (id, antecedent?) => modify (setReference id antecedent?)
      modify fun doc => doc.remember st.found.reverse
      return st.found.reverse

section InPlace

variable {α β : Type}

theorem run_get_bind (next : Document → ExceptT Fault (StateM Document) α) (doc : Document) :
    (get >>= next).run.run doc = (next doc).run.run doc :=
  rfl

theorem run_bind (first : ExceptT Fault (StateM Document) α)
    (next : α → ExceptT Fault (StateM Document) β) (doc : Document) :
    (first >>= next).run.run doc =
      match first.run.run doc with
      | (.ok a, doc') => (next a).run.run doc'
      | (.error fault, doc') => (.error fault, doc') := by
  unfold ExceptT.run StateT.run
  simp only [bind, ExceptT.bind, ExceptT.mk, StateT.bind, ExceptT.bindCont]
  rcases first doc with ⟨_ | _, _⟩ <;> rfl

theorem run_liftExcept (result : Except Fault α) (doc : Document) :
    (liftExcept result : ExceptT Fault (StateM Document) α).run.run doc = (result, doc) := by
  cases result <;> rfl

theorem run_forM_setReference (entries : List (MentionId × Option MentionId)) (doc : Document) :
    (entries.forM fun (id, antecedent?) => modify (setReference id antecedent?) :
        ExceptT Fault (StateM Document) PUnit).run.run doc =
      (.ok ⟨⟩, entries.foldl (fun d (id, antecedent?) => d.setReference id antecedent?) doc) := by
  induction entries generalizing doc with
  | nil => rfl
  | cons entry rest ih => exact ih _

end InPlace

theorem foldl_setReference (entries : List (MentionId × Option MentionId)) (doc : Document) :
    entries.foldl (fun d (id, antecedent?) => d.setReference id antecedent?) doc =
      { doc with
        goldMentions := entries.foldl
          (fun t (id, antecedent?) => t.modify id fun m => { m with antecedent? })
          doc.goldMentions } := by
  induction entries generalizing doc with
  | nil => rfl
  | cons entry rest ih => exact ih _

/-- Where the extraction succeeds the program ends in the same document, and where it fails the
program has changed nothing. -/
theorem run_extractInPlace (doc : Document) :
    extractInPlace.run.run doc =
      match doc.extractGoldLinks with
      | .ok (links, doc') => (.ok links, doc')
      | .error fault => (.error fault, doc) := by
  rw [extractInPlace, run_get_bind, extractGoldLinks_eq]
  cases memo : doc.goldLinks? with
  | some links => rfl
  | none =>
    cases rows : doc.gold? with
    | none => rfl
    | some rows' =>
      simp only [run_bind, run_liftExcept]
      cases (GoldOrder.ofRows rows').search (doc.givenAntecedents rows'.flatten) with
      | error fault => rfl
      | ok st =>
        simp only [run_forM_setReference, foldl_setReference]
        rfl

/-- A first extraction either succeeds and leaves references that lead backwards, connect the same
and give the same links again, or fails and leaves the document as it was. -/
theorem extractGoldLinks_normalised {doc : Document} (first : doc.goldLinks? = none)
    (once : doc.goldRows.flatten.Nodup) (entered : doc.GoldEntered) :
    (∀ links doc', doc.extractGoldLinks = .ok (links, doc') →
      extractInPlace.run.run doc = (.ok links, doc') ∧ Normalised doc links doc') ∧
    ∀ fault, doc.extractGoldLinks = .error fault →
      extractInPlace.run.run doc = (.error fault, doc) := by
  refine ⟨fun links doc' ok => ⟨?_, ?_⟩, fun fault failed => ?_⟩
  · rw [run_extractInPlace, ok]
  · obtain ⟨st, search, rfl, rfl⟩ := extractGoldLinks_eq_ok first ok
    exact normalised_of_search once entered search
  · rw [run_extractInPlace, failed]

/-- The first mention refers forward and is turned round; in the other document the second one then
refers to a mention that is not listed. -/
theorem extractGoldLinks_normalised_turned :
    let doc := ofAntecedents [[(0, some 2), (1, some 0)], [(2, none), (3, some 2), (4, none)]]
    let links := [(1, 0), (2, 1), (2, 0), (3, 2), (3, 1), (3, 0)]
    let broken := ofAntecedents [[(0, some 2), (1, some 9)], [(2, none)]]
    (doc.goldLinks? = none ∧ doc.goldRows.flatten.Nodup ∧ doc.GoldEntered ∧
      ∃ doc', doc.extractGoldLinks = .ok (links, doc') ∧ Normalised doc links doc') ∧
    broken.goldLinks? = none ∧ broken.goldRows.flatten.Nodup ∧ broken.GoldEntered ∧
      broken.extractGoldLinks = .error (.missingGoldAntecedent 9) ∧
      extractInPlace.run.run broken = (.error (.missingGoldAntecedent 9), broken) := by
  intro doc links broken
  have once : doc.goldRows.flatten.Nodup := by decide
  have entered : doc.GoldEntered := by decide +kernel
  have found : doc.extractGoldLinks.map Prod.fst = .ok links := by decide +kernel
  have once' : broken.goldRows.flatten.Nodup := by decide
  have entered' : broken.GoldEntered := by decide +kernel
  have lost : broken.extractGoldLinks.map Prod.fst = .error (.missingGoldAntecedent 9) := by
    decide +kernel
  obtain ⟨⟨_, doc'⟩, ok, rfl⟩ := map_eq_ok_iff.mp found
  have failed := map_eq_error_iff.mp lost
  have normalised := ((extractGoldLinks_normalised rfl once entered).1 _ _ ok).2
  have unchanged := (extractGoldLinks_normalised rfl once' entered').2 _ failed
  exact ⟨⟨rfl, once, entered, doc', ok, normalised⟩, rfl, once', entered', failed, unchanged⟩

end Document

end Discourse
