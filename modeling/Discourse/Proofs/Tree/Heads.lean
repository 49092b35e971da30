import Discourse.Proofs.Tree.Layout
/-!
# Heads in a tree

The head of a phrase is one of its children, and following heads downward comes to a node without
children (`ParseTree.leads_iff`).  Two nodes of one such way have the same end, so that what heads a
phrase heads every node between the two (`ParseTree.head_of_between`).

On the way up from a word the noun phrases it heads need not follow each other: other phrases may
stand below the lowest of them, and between two of them.  The search passes over the first gap and
stops at the second (`ParseTree.topOfRun_cases`), which makes its answer the upper end of the
unbroken run that starts at the lowest (`ParseTree.nounPhraseFor_cases`).
-/

namespace Discourse

/-! ## The child that is the head -/

theorem HeadRule.mem_of_pick? {rule : HeadRule} {kids : List Constituent} {kid : Constituent}
    (picked : rule.pick? kids = some kid) : kid ∈ kids := by
  unfold pick? at picked
  dsimp only at picked
  split at picked
  · exact List.mem_of_find?_eq_some picked
  · exact List.mem_reverse.mp (List.mem_of_find?_eq_some picked)

theorem mem_of_headAmong? {label : String} {kids : List Constituent} {kid : Constituent}
    (chosen : headAmong? label kids = some kid) : kid ∈ kids := by
  unfold headAmong? at chosen
  split at chosen
  next => cases chosen
  next only =>
    cases chosen
    exact List.mem_singleton_self _
  next =>
    dsimp only at chosen
    split at chosen
    next picked =>
      cases chosen
      obtain ⟨rule, -, picked⟩ := List.exists_of_findSome?_eq_some picked
      exact rule.mem_of_pick? picked
    next =>
      split at chosen
      · exact List.mem_of_getLast? chosen
      · exact List.mem_of_head? chosen

theorem headAmong?_eq_none_iff {label : String} {kids : List Constituent} :
    headAmong? label kids = none ↔ kids = [] := by
  unfold headAmong?
  split
  next => simp
  next => simp
  next several _ =>
    dsimp only
    refine iff_of_false ?_ several
    split
    next => exact Option.some_ne_none _
    next =>
      split
      · rwa [List.getLast?_eq_none_iff]
      · rwa [List.head?_eq_none_iff]

/-- What the head of a node is taken from: the node has no children, or it has the heads of its
children before it. -/
theorem Row.exists_kids_of_mem {row : Row} {parent? : Option Nat} {id leaf : Nat} {n : Node}
    (mem : n ∈ row.nodes parent? id leaf) :
    ∃ kids : List Constituent, kids.map Constituent.id = n.children ∧
      (∀ kid ∈ kids, ∃ m ∈ row.nodes parent? id leaf, m.constituent = kid) ∧
      n.headChild? = (headAmong? n.label kids).map Constituent.id ∧
      n.head = ((headAmong? n.label kids).map Constituent.head).getD n.id := by
  induction row generalizing parent? id leaf with
  | done => cases mem
  | word text next ih =>
    rcases List.mem_cons.mp mem with rfl | later
    · exact ⟨[], rfl, fun kid none => absurd none List.not_mem_nil, rfl, rfl⟩
    · obtain ⟨kids, ids, listed, chosen⟩ := ih later
      refine ⟨kids, ids, fun kid mem => ?_, chosen⟩
      obtain ⟨m, found, same⟩ := listed kid mem
      exact ⟨m, List.mem_cons_of_mem _ found, same⟩
  | phrase label below next below_ih next_ih =>
    rw [nodes, List.cons_append] at mem ⊢
    rcases List.mem_cons.mp mem with rfl | mem
    · refine ⟨_, rfl, fun kid mem => ?_, rfl, rfl⟩
      obtain ⟨m, inner, same⟩ := List.mem_map.mp mem
      have inner := List.mem_of_mem_filter inner
      exact ⟨m, List.mem_cons_of_mem _ (List.mem_append_left _ inner), same⟩
    · rcases List.mem_append.mp mem with inner | later
      · obtain ⟨kids, ids, listed, chosen⟩ := below_ih inner
        refine ⟨kids, ids, fun kid mem => ?_, chosen⟩
        obtain ⟨m, found, same⟩ := listed kid mem
        exact ⟨m, List.mem_cons_of_mem _ (List.mem_append_left _ found), same⟩
      · obtain ⟨kids, ids, listed, chosen⟩ := next_ih later
        refine ⟨kids, ids, fun kid mem => ?_, chosen⟩
        obtain ⟨m, found, same⟩ := listed kid mem
        exact ⟨m, List.mem_cons_of_mem _ (List.mem_append_right _ found), same⟩

namespace ParseTree

variable {tree : ParseTree}

/-- The children of a node as their phrase sees them. -/
def kids (tree : ParseTree) (n : Node) : List Constituent :=
  n.children.filterMap fun x => (tree.node? x).map Node.constituent

theorem kids_eq {n : Node} {kids : List Constituent} (ids : kids.map Constituent.id = n.children)
    (listed : ∀ kid ∈ kids, ∃ m ∈ tree.nodes, m.constituent = kid) : tree.kids n = kids := by
  have found : ∀ kid ∈ kids, (tree.node? kid.id).map Node.constituent = some kid := by
    intro kid mem
    obtain ⟨m, mem', rfl⟩ := listed kid mem
    have at_m : tree.node? m.constituent.id = some m := node?_eq_some_iff.mpr ⟨mem', rfl⟩
    rw [at_m, Option.map_some]
  rw [ParseTree.kids, ← ids, List.filterMap_map]
  exact (List.filterMap_congr found).trans List.filterMap_some

/-- The head of a node is chosen among its children. -/
theorem headChild?_eq {n : Node} (mem : n ∈ tree.nodes) :
    (tree.kids n).map Constituent.id = n.children ∧
      n.headChild? = (headAmong? n.label (tree.kids n)).map Constituent.id := by
  obtain ⟨kids, ids, listed, chosen, -⟩ := Row.exists_kids_of_mem mem
  rw [kids_eq ids listed]
  exact ⟨ids, chosen⟩

theorem head_cases {n : Node} (mem : n ∈ tree.nodes) :
    (n.children = [] ∧ n.headChild? = none ∧ n.head = n.id) ∨
      ∃ m ∈ tree.nodes, m.parent? = some n.id ∧ n.headChild? = some m.id ∧ n.head = m.head := by
  obtain ⟨kids, ids, listed, child, head⟩ := Row.exists_kids_of_mem mem
  rw [child, head]
  cases chosen : headAmong? n.label kids with
  | none =>
    rw [headAmong?_eq_none_iff] at chosen
    exact .inl ⟨by rw [← ids, chosen]; rfl, rfl, rfl⟩
  | some kid =>
    have inKids := mem_of_headAmong? chosen
    obtain ⟨m, mem', rfl⟩ := listed kid inKids
    have isChild : m.id ∈ n.children := ids ▸ List.mem_map_of_mem inKids
    have outer : ∀ p, (none : Option Nat) = some p → p < 0 := by
      intro p none
      cases none
    exact .inr ⟨m, mem', (Row.mem_children_iff outer mem mem').mp isChild, rfl, rfl⟩

theorem below_parent {n m : Node} (mem : m ∈ tree.nodes) (child : m.parent? = some n.id) :
    tree.Below m.id n.id :=
  .up (by rw [node?_eq_some_iff.mpr ⟨mem, rfl⟩]; exact child) (.self n.id)

/-- What lies above a child is the child itself or lies above its parent. -/
theorem Below.eq_or_above {m : Node} {p x : Nat} (mem : m ∈ tree.nodes) (child : m.parent? = some p)
    (below : tree.Below m.id x) : x = m.id ∨ tree.Below p x := by
  generalize start : m.id = y at below
  cases below with
  | self => exact .inl rfl
  | up parent further =>
    rw [← start, node?_eq_some_iff.mpr ⟨mem, rfl⟩, Option.bind_some, child] at parent
    cases parent
    exact .inr further

theorem Below.exists_mem {n : Node} {x : Nat} (mem : n ∈ tree.nodes) (below : tree.Below n.id x) :
    ∃ m ∈ tree.nodes, m.id = x := by
  generalize start : n.id = y at below
  induction below generalizing n with
  | self => exact ⟨n, mem, start⟩
  | up parent _ ih =>
    rw [← start, node?_eq_some_iff.mpr ⟨mem, rfl⟩, Option.bind_some] at parent
    rcases Row.parent_cases mem with outer | ⟨q, listed, parent', -⟩
    · cases outer.symm.trans parent
    · cases parent'.symm.trans parent
      exact ih listed rfl

/-- A child has a smaller subtree. -/
theorem size_lt_of_parent {n m : Node} (mem : n ∈ tree.nodes) (mem' : m ∈ tree.nodes)
    (child : m.parent? = some n.id) : m.size < n.size := by
  have before := parent_lt mem' child
  have bounds := (below_iff mem).mp (below_parent mem' child)
  have nested := Row.subtree_nested mem mem' bounds.1 bounds.2
  omega

/-! ## Following heads -/

/-- Following heads downward from `x` as far as it goes comes to `y`. -/
inductive Leads (tree : ParseTree) : Nat → Nat → Prop
  | stop {x : Nat} {n : Node} : tree.node? x = some n → n.headChild? = none → Leads tree x x
  | down {x y c : Nat} {n : Node} : tree.node? x = some n → n.headChild? = some c →
      Leads tree c y → Leads tree x y

theorem leads_head {n : Node} (mem : n ∈ tree.nodes) : tree.Leads n.id n.head := by
  induction size : n.size using Nat.strongRecOn generalizing n with
  | _ size ih =>
    subst size
    have found := node?_eq_some_iff.mpr ⟨mem, rfl⟩
    rcases head_cases mem with ⟨-, none, same⟩ | ⟨m, mem', child, down, same⟩
    · rw [same]
      exact .stop found none
    · rw [same]
      exact .down found down (ih m.size (size_lt_of_parent mem mem' child) mem' rfl)

theorem Leads.unique {x y z : Nat} (h : tree.Leads x y) (h' : tree.Leads x z) : y = z := by
  induction h with
  | stop found none =>
    cases h' with
    | stop => rfl
    | down found' down =>
      cases found.symm.trans found'
      cases none.symm.trans down
  | down found down _ ih =>
    cases h' with
    | stop found' none =>
      cases found.symm.trans found'
      cases none.symm.trans down
    | down found' down' further =>
      cases found.symm.trans found'
      cases down.symm.trans down'
      exact ih further

/-- From every node there is one way downward along heads, and it ends at the head. -/
theorem leads_iff {n : Node} (mem : n ∈ tree.nodes) {x : Nat} : tree.Leads n.id x ↔ x = n.head :=
  ⟨fun leads => leads.unique (leads_head mem), fun same => same ▸ leads_head mem⟩

/-- The head of a node lies below it and has no children. -/
theorem exists_head {n : Node} (mem : n ∈ tree.nodes) :
    ∃ h ∈ tree.nodes, h.id = n.head ∧ tree.Below h.id n.id ∧ h.children = [] := by
  induction size : n.size using Nat.strongRecOn generalizing n with
  | _ size ih =>
    subst size
    rcases head_cases mem with ⟨childless, -, same⟩ | ⟨m, mem', child, -, same⟩
    · exact ⟨n, mem, same.symm, .self n.id, childless⟩
    · obtain ⟨h, listed, head, below, childless⟩ :=
        ih m.size (size_lt_of_parent mem mem' child) mem' rfl
      exact ⟨h, listed, head.trans same.symm, below.trans (below_parent mem' child), childless⟩

/-- What heads a node heads every node between the two. -/
theorem head_of_between {n m : Node} (mem : n ∈ tree.nodes) (mem' : m ∈ tree.nodes)
    (lower : tree.Below m.head n.id) (upper : tree.Below n.id m.id) : n.head = m.head := by
  induction size : m.size using Nat.strongRecOn generalizing m with
  | _ size ih =>
    subst size
    by_cases same : n.id = m.id
    · rw [Row.eq_of_id_eq mem mem' same]
    rcases head_cases mem' with ⟨-, -, own⟩ | ⟨k, mem'', child, -, head⟩
    · -- only the node itself lies above its head and below it
      rw [own, below_iff mem] at lower
      have upper := (below_iff mem').mp upper
      omega
    · rw [head] at lower ⊢
      obtain ⟨h, -, isHead, below, -⟩ := exists_head mem''
      -- the node between lies above the head as the chosen child does, and not above that child
      have inChild : tree.Below n.id k.id := by
        rcases below.total mem'' mem (isHead ▸ lower) with above | within
        · rcases above.eq_or_above mem'' child with eq | further
          · rw [eq]
            exact .self k.id
          · have upper := (below_iff mem').mp upper
            have further := (below_iff mem).mp further
            omega
        · exact within
      exact ih k.size (size_lt_of_parent mem' mem'' child) mem'' lower inChild rfl

/-! ## The noun phrase of a word -/

/-- `x` is a noun phrase above the node `l`, which heads it. -/
def HeadedPhrase (tree : ParseTree) (l x : Nat) : Prop :=
  x ≠ l ∧ tree.Below l x ∧
    ∃ n, tree.node? x = some n ∧ n.head = l ∧ basicCategory n.label = "NP"

/-- `x` lies above `bottom`, and every node from there up to `x` is a noun phrase headed by `l`. -/
def InRun (tree : ParseTree) (l bottom x : Nat) : Prop :=
  tree.Below bottom x ∧ ∀ y, tree.Below bottom y → tree.Below y x → tree.HeadedPhrase l y

/-- The unbroken run of noun phrases headed by `l` that starts at the lowest one reaches from `bottom`
to `top`. -/
structure RunEnds (tree : ParseTree) (l bottom top : Nat) : Prop where
  headed : tree.HeadedPhrase l bottom
  lowest : ∀ x, tree.HeadedPhrase l x → tree.Below bottom x
  within : tree.InRun l bottom top
  highest : ∀ x, tree.InRun l bottom x → tree.Below x top

/-- What the walk upward looks for. -/
def IsHeadedBy (leaf : Nat) (n : Node) : Prop := n.head = leaf ∧ basicCategory n.label = "NP"

theorem topOfRun_some (leaf found : Nat) (row : List Node) :
    ∃ run back, row = run ++ back ∧ (∀ n ∈ run, IsHeadedBy leaf n) ∧
      (∀ n ∈ back.head?, ¬ IsHeadedBy leaf n) ∧
      topOfRun leaf (some found) row = some ((run.getLast?.map Node.id).getD found) := by
  induction row generalizing found with
  | nil => exact ⟨[], [], rfl, by simp, by simp, rfl⟩
  | cons n rest ih =>
    rw [topOfRun]
    split
    next headed =>
      obtain ⟨run, back, rfl, all, ends, top⟩ := ih n.id
      refine ⟨n :: run, back, rfl, List.forall_mem_cons.mpr ⟨headed, all⟩, ends, ?_⟩
      rw [top, List.getLast?_cons]
      cases run.getLast? <;> rfl
    next other =>
      refine ⟨[], n :: rest, rfl, by simp, ?_, rfl⟩
      intro m first
      cases first
      exact other

/-- The walk upward meets no noun phrase that the word heads, or it answers with the last one of the
first unbroken run. -/
theorem topOfRun_cases (leaf : Nat) (row : List Node) :
    (topOfRun leaf none row = none ∧ ∀ n ∈ row, ¬ IsHeadedBy leaf n) ∨
      ∃ front bottom more back top, row = front ++ ((bottom :: more) ++ back) ∧
        (∀ n ∈ front, ¬ IsHeadedBy leaf n) ∧ (∀ n ∈ bottom :: more, IsHeadedBy leaf n) ∧
        (∀ n ∈ back.head?, ¬ IsHeadedBy leaf n) ∧ (bottom :: more).getLast? = some top ∧
        topOfRun leaf none row = some top.id := by
  induction row with
  | nil => exact .inl ⟨rfl, by simp⟩
  | cons n rest ih =>
    rw [topOfRun]
    split
    next headed =>
      obtain ⟨run, back, rfl, all, ends, top⟩ := topOfRun_some leaf n.id rest
      refine .inr ⟨[], n, run, back, run.getLast?.getD n, rfl, by simp,
        List.forall_mem_cons.mpr ⟨headed, all⟩, ends, List.getLast?_cons, ?_⟩
      rw [top]
      cases run.getLast? <;> rfl
    next other =>
      rcases ih with ⟨none, all⟩ | ⟨front, bottom, more, back, top, rfl, before, run, ends, last, eq⟩
      · exact .inl ⟨none, List.forall_mem_cons.mpr ⟨other, all⟩⟩
      · exact .inr ⟨n :: front, bottom, more, back, top, rfl,
          List.forall_mem_cons.mpr ⟨other, before⟩, run, ends, last, eq⟩

theorem mem_above_iff {l : Nat} {n : Node} :
    n ∈ tree.above l ↔ n ∈ tree.nodes ∧ n.id < l ∧ l < n.id + n.size := by
  simp [above]

/-- The nodes above a node come with descending numbers. -/
theorem above_descending (tree : ParseTree) (l : Nat) :
    (tree.above l).Pairwise fun n m => m.id < n.id := by
  have ascending : (tree.nodes.map Node.id).Pairwise (· < ·) := by
    rw [nodes, Row.map_id_nodes]
    exact List.pairwise_lt_range'
  rw [above, List.pairwise_reverse]
  exact (List.pairwise_map.mp ascending).filter _

theorem headedPhrase_iff {l x : Nat} :
    tree.HeadedPhrase l x ↔ ∃ n ∈ tree.above l, n.id = x ∧ IsHeadedBy l n := by
  constructor
  · rintro ⟨apart, below, n, found, headed⟩
    obtain ⟨mem, rfl⟩ := node?_eq_some_iff.mp found
    have bounds := (below_iff mem).mp below
    exact ⟨n, mem_above_iff.mpr ⟨mem, by omega, bounds.2⟩, rfl, headed⟩
  · rintro ⟨n, up, rfl, headed⟩
    obtain ⟨mem, before, inside⟩ := mem_above_iff.mp up
    exact ⟨Nat.ne_of_lt before, (below_iff mem).mpr ⟨Nat.le_of_lt before, inside⟩, n,
      node?_eq_some_iff.mpr ⟨mem, rfl⟩, headed⟩

theorem below_of_above {l : Nat} {n : Node} (up : n ∈ tree.above l) : tree.Below l n.id := by
  obtain ⟨mem, before, inside⟩ := mem_above_iff.mp up
  exact (below_iff mem).mpr ⟨Nat.le_of_lt before, inside⟩

/-- Of two nodes above a third one, that with the larger number lies below the other. -/
theorem below_of_le {l : Nat} {n m : Node} (up : n ∈ tree.above l) (up' : m ∈ tree.above l)
    (le : m.id ≤ n.id) : tree.Below n.id m.id := by
  obtain ⟨-, before, -⟩ := mem_above_iff.mp up
  obtain ⟨mem, -, inside⟩ := mem_above_iff.mp up'
  exact (below_iff mem).mpr ⟨le, Nat.lt_trans before inside⟩

/-- What lies above a node above `l` is a node above `l` with no larger number. -/
theorem exists_above_of_below {l x : Nat} {n : Node} (up : n ∈ tree.above l)
    (below : tree.Below n.id x) : ∃ m ∈ tree.above l, m.id = x ∧ m.id ≤ n.id := by
  obtain ⟨mem, before, -⟩ := mem_above_iff.mp up
  obtain ⟨m, listed, rfl⟩ := below.exists_mem mem
  have le := ((below_iff listed).mp below).1
  have inside := ((below_iff listed).mp ((below_of_above up).trans below)).2
  exact ⟨m, mem_above_iff.mpr ⟨listed, by omega, inside⟩, rfl, le⟩

/-- Nodes with descending numbers are cut in three: the numbers tell the part in which a node is. -/
theorem part_of_descending {front more back : List Node} {bottom top : Node}
    (order : (front ++ ((bottom :: more) ++ back)).Pairwise fun n m => m.id < n.id)
    (last : (bottom :: more).getLast? = some top) {n : Node}
    (mem : n ∈ front ++ ((bottom :: more) ++ back)) :
    (n ∈ front ∧ bottom.id < n.id) ∨
      (n ∈ bottom :: more ∧ top.id ≤ n.id ∧ n.id ≤ bottom.id) ∨
      (n.id < top.id ∧ ∃ next, back.head? = some next ∧ n.id ≤ next.id ∧ next.id < top.id) := by
  obtain ⟨-, order, beforeRun⟩ := List.pairwise_append.mp order
  obtain ⟨inRun, inBack, beforeBack⟩ := List.pairwise_append.mp order
  obtain ⟨earlier, isLast⟩ := List.getLast?_eq_some_iff.mp last
  rcases List.mem_append.mp mem with inFront | mem
  · exact .inl ⟨inFront, beforeRun n inFront bottom List.mem_cons_self⟩
  rcases List.mem_append.mp mem with isRun | mem
  · refine .inr (.inl ⟨isRun, ?_, ?_⟩)
    · rw [isLast] at isRun inRun
      rcases List.mem_append.mp isRun with mem | isTop
      · exact Nat.le_of_lt ((List.pairwise_append.mp inRun).2.2 n mem top List.mem_cons_self)
      · exact Nat.le_of_eq (congrArg Node.id (List.mem_singleton.mp isTop).symm)
    · rcases List.mem_cons.mp isRun with rfl | isMore
      · exact Nat.le_refl _
      · exact Nat.le_of_lt ((List.pairwise_cons.mp inRun).1 n isMore)
  · refine .inr (.inr ⟨beforeBack top (by simp [isLast]) n mem, ?_⟩)
    cases back with
    | nil => cases mem
    | cons next rest =>
      refine ⟨next, rfl, ?_, beforeBack top (by simp [isLast]) next List.mem_cons_self⟩
      rcases List.mem_cons.mp mem with rfl | isRest
      · exact Nat.le_refl _
      · exact Nat.le_of_lt ((List.pairwise_cons.mp inBack).1 n isRest)

/-- Where the nodes above `l` are cut into what comes below the lowest noun phrase that `l` heads, the
unbroken run from there on and the rest, the run reaches from its first node to its last. -/
theorem runEnds_of_split {l : Nat} {front more back : List Node} {bottom top : Node}
    (split : tree.above l = front ++ ((bottom :: more) ++ back))
    (before : ∀ n ∈ front, ¬ IsHeadedBy l n) (run : ∀ n ∈ bottom :: more, IsHeadedBy l n)
    (ends : ∀ n ∈ back.head?, ¬ IsHeadedBy l n) (last : (bottom :: more).getLast? = some top) :
    tree.RunEnds l bottom.id top.id := by
  have part : ∀ n ∈ tree.above l, _ := fun n up =>
    part_of_descending (split ▸ tree.above_descending l) last (split ▸ up)
  have upBottom : bottom ∈ tree.above l := by simp [split]
  have topInRun : top ∈ bottom :: more := List.mem_of_getLast? last
  have upTop : top ∈ tree.above l := by
    rw [split]
    exact List.mem_append_right _ (List.mem_append_left _ topInRun)
  have le : top.id ≤ bottom.id := by
    rcases part top upTop with ⟨early, -⟩ | ⟨-, -, le⟩ | ⟨lt, -⟩
    · exact absurd (run top topInRun) (before top early)
    · exact le
    · exact absurd lt (Nat.lt_irrefl _)
  refine ⟨headedPhrase_iff.mpr ⟨bottom, upBottom, rfl, run bottom List.mem_cons_self⟩, ?_, ?_, ?_⟩
  · intro x headed
    obtain ⟨n, up, rfl, here⟩ := headedPhrase_iff.mp headed
    refine below_of_le upBottom up ?_
    rcases part n up with ⟨early, -⟩ | ⟨-, -, le⟩ | ⟨lt, -⟩
    · exact absurd here (before n early)
    · exact le
    · omega
  · refine ⟨below_of_le upBottom upTop le, fun y lower upper => ?_⟩
    obtain ⟨n, up, rfl, notAbove⟩ := exists_above_of_below upBottom lower
    have notBelow := ((below_iff (mem_above_iff.mp upTop).1).mp upper).1
    rcases part n up with ⟨-, lt⟩ | ⟨inRun, -⟩ | ⟨lt, -⟩
    · omega
    · exact headedPhrase_iff.mpr ⟨n, up, rfl, run n inRun⟩
    · omega
  · rintro x ⟨lower, unbroken⟩
    obtain ⟨n, up, rfl, notAbove⟩ := exists_above_of_below upBottom lower
    rcases part n up with ⟨-, lt⟩ | ⟨-, le, -⟩ | ⟨-, next, first, le', lt⟩
    · omega
    · exact below_of_le up upTop le
    · -- the node behind the run stands between, and breaks the run
      have upNext : next ∈ tree.above l := by
        rw [split]
        exact List.mem_append_right _ (List.mem_append_right _ (List.mem_of_head? first))
      have between := unbroken next.id (below_of_le upBottom upNext (by omega))
        (below_of_le upNext up le')
      obtain ⟨next', up', same, here⟩ := headedPhrase_iff.mp between
      have eq : next' = next :=
        Row.eq_of_id_eq (mem_above_iff.mp up').1 (mem_above_iff.mp upNext).1 same
      exact absurd (eq ▸ here) (ends next first)

/-- The search upward from a node finds nothing where the node heads no noun phrase above it, and else
the upper end of the run that starts at the lowest. -/
theorem nounPhraseFor_cases (tree : ParseTree) (l : Nat) :
    (tree.nounPhraseFor l = l ∧ ∀ x, ¬ tree.HeadedPhrase l x) ∨
      ∃ bottom, tree.RunEnds l bottom (tree.nounPhraseFor l) := by
  rcases topOfRun_cases l (tree.above l) with
    ⟨none, all⟩ | ⟨front, bottom, more, back, top, split, before, run, ends, last, eq⟩
  · refine .inl ⟨by rw [nounPhraseFor, none, Option.getD_none], fun x headed => ?_⟩
    obtain ⟨n, up, -, here⟩ := headedPhrase_iff.mp headed
    exact all n up here
  · rw [nounPhraseFor, eq, Option.getD_some]
    exact .inr ⟨bottom.id, runEnds_of_split split before run ends last⟩

/-- What the heads of a tree say of each other. -/
structure WellHeaded (tree : ParseTree) : Prop where
  /-- The head of a node is chosen among its children by the rules. -/
  chosen : ∀ i n, tree.node? i = some n → (tree.kids n).map Constituent.id = n.children ∧
    n.headChild? = (headAmong? n.label (tree.kids n)).map Constituent.id
  /-- Following heads downward ends, and it ends at the head. -/
  leads : ∀ i n, tree.node? i = some n → ∀ x, tree.Leads i x ↔ x = n.head
  /-- The head is a word or a bracket with nothing in it. -/
  terminal : ∀ i n, tree.node? i = some n →
    ∃ h, tree.node? n.head = some h ∧ tree.Below n.head i ∧ h.children = []
  /-- A word that heads a node heads every node between the two. -/
  between : ∀ i j n m, tree.node? i = some n → tree.node? j = some m → tree.Below m.head i →
    tree.Below i j → n.head = m.head
  nounPhrase : ∀ l, (tree.nounPhraseFor l = l ∧ ∀ x, ¬ tree.HeadedPhrase l x) ∨
    ∃ bottom, tree.RunEnds l bottom (tree.nounPhraseFor l)

/-- The head of every node is found by going down along the children that the rules choose, heads all
nodes on the way, and is carried up to the noun phrase that is taken for it. -/
theorem nodes_wellHeaded (tree : ParseTree) : tree.WellHeaded where
  chosen := by
    intro i n at_i
    exact headChild?_eq (node?_eq_some_iff.mp at_i).1
  leads := by
    intro i n at_i x
    obtain ⟨mem, rfl⟩ := node?_eq_some_iff.mp at_i
    exact leads_iff mem
  terminal := by
    intro i n at_i
    obtain ⟨mem, rfl⟩ := node?_eq_some_iff.mp at_i
    obtain ⟨h, listed, same, below, childless⟩ := exists_head mem
    rw [← same]
    exact ⟨h, node?_eq_some_iff.mpr ⟨listed, rfl⟩, below, childless⟩
  between := by
    intro i j n m at_i at_j lower upper
    obtain ⟨mem, rfl⟩ := node?_eq_some_iff.mp at_i
    obtain ⟨mem', rfl⟩ := node?_eq_some_iff.mp at_j
    exact head_of_between mem mem' lower upper
  nounPhrase := tree.nounPhraseFor_cases

end ParseTree

end Discourse
