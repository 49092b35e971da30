/-!
# Tables and sets of keys

A table keeps one value per key in the order of its keys, and a set keeps its keys alone, each
once.  Both are plain lists, walked once by every operation.

That the keys of a table ascend is part of the table, so the entry of a key is the only one with
that key, and what a walk over `entries` meets is exactly what `find?` finds.
-/

namespace Discourse

/-- A strict total order on keys, given as the test whether one key comes before another. -/
class KeyOrder (κ : Type) where
  before : κ → κ → Bool
  irrefl (a : κ) : before a a = false
  trans {a b c : κ} : before a b = true → before b c = true → before a c = true
  total (a b : κ) : before a b = true ∨ a = b ∨ before b a = true

namespace KeyOrder

variable {α β : Type}

instance : KeyOrder Nat where
  before a b := Nat.blt a b
  irrefl a := Bool.eq_false_iff.mpr fun lt => Nat.lt_irrefl a (Nat.blt_eq.mp lt)
  trans h h' := by
    simp only [Nat.blt_eq] at h h' ⊢
    exact Nat.lt_trans h h'
  total a b := by
    simp only [Nat.blt_eq]
    omega

/-- The order of the images under an injection. -/
abbrev comap [KeyOrder β] (f : α → β) (inj : ∀ a b, f a = f b → a = b) : KeyOrder α where
  before a b := before (f a) (f b)
  irrefl a := irrefl (f a)
  trans h h' := trans h h'
  total a b := by
    rcases total (f a) (f b) with h | h | h
    · exact .inl h
    · exact .inr (.inl (inj a b h))
    · exact .inr (.inr h)

instance : KeyOrder Char :=
  comap Char.toNat fun _ _ h => Char.toNat_inj.mp h

section Lexicographic

variable [KeyOrder α] [DecidableEq α]

instance [KeyOrder β] : KeyOrder (α × β) where
  before p q := before p.1 q.1 || (decide (p.1 = q.1) && before p.2 q.2)
  irrefl p := by simp [irrefl]
  trans {p q r} h h' := by
    simp only [Bool.or_eq_true, Bool.and_eq_true, decide_eq_true_eq] at h h' ⊢
    rcases h with h | ⟨e, h⟩ <;> rcases h' with h' | ⟨e', h'⟩
    · exact .inl (trans h h')
    · exact .inl (e' ▸ h)
    · exact .inl (e ▸ h')
    · exact .inr ⟨e.trans e', trans h h'⟩
  total p q := by
    simp only [Bool.or_eq_true, Bool.and_eq_true, decide_eq_true_eq]
    rcases total p.1 q.1 with h | h | h
    · exact .inl (.inl h)
    · rcases total p.2 q.2 with h' | h' | h'
      · exact .inl (.inr ⟨h, h'⟩)
      · exact .inr (.inl (Prod.ext h h'))
      · exact .inr (.inr (.inr ⟨h.symm, h'⟩))
    · exact .inr (.inr (.inl h))

/-- The order of rows by their first difference, the shorter first. -/
def rowBefore : List α → List α → Bool
  | _, [] => false
  | [], _ :: _ => true
  | a :: as, b :: bs => before a b || (decide (a = b) && rowBefore as bs)

theorem rowBefore_irrefl : ∀ as : List α, rowBefore as as = false
  | [] => rfl
  | a :: as => by simp [rowBefore, irrefl, rowBefore_irrefl as]

theorem rowBefore_trans : ∀ {as bs cs : List α},
    rowBefore as bs = true → rowBefore bs cs = true → rowBefore as cs = true
  | _, [], _, h, _ => by simp [rowBefore] at h
  | _, _ :: _, [], _, h => by simp [rowBefore] at h
  | [], _ :: _, _ :: _, _, _ => rfl
  | a :: as, b :: bs, c :: cs, h, h' => by
    simp only [rowBefore, Bool.or_eq_true, Bool.and_eq_true, decide_eq_true_eq] at h h' ⊢
    rcases h with h | ⟨rfl, h⟩ <;> rcases h' with h' | ⟨rfl, h'⟩
    · exact .inl (trans h h')
    · exact .inl h
    · exact .inl h'
    · exact .inr ⟨rfl, rowBefore_trans h h'⟩

theorem rowBefore_total : ∀ as bs : List α,
    rowBefore as bs = true ∨ as = bs ∨ rowBefore bs as = true
  | [], [] => .inr (.inl rfl)
  | [], _ :: _ => .inl rfl
  | _ :: _, [] => .inr (.inr rfl)
  | a :: as, b :: bs => by
    simp only [rowBefore, Bool.or_eq_true, Bool.and_eq_true, decide_eq_true_eq, List.cons.injEq]
    rcases total a b with h | rfl | h
    · exact .inl (.inl h)
    · rcases rowBefore_total as bs with h | rfl | h
      · exact .inl (.inr ⟨rfl, h⟩)
      · exact .inr (.inl ⟨rfl, rfl⟩)
      · exact .inr (.inr (.inr ⟨rfl, h⟩))
    · exact .inr (.inr (.inl h))

instance : KeyOrder (List α) where
  before := rowBefore
  irrefl := rowBefore_irrefl
  trans := rowBefore_trans
  total := rowBefore_total

end Lexicographic

instance : KeyOrder String := comap String.toList fun _ _ h => String.toList_inj.mp h

end KeyOrder

/-- One value per key, in key order. -/
structure Table (κ α : Type) [KeyOrder κ] where
  entries : List (κ × α)
  sorted : entries.Pairwise (fun e f => KeyOrder.before e.1 f.1 = true)
deriving Repr, DecidableEq

namespace Table

variable {κ α : Type} [KeyOrder κ] [DecidableEq κ]

instance : EmptyCollection (Table κ α) := ⟨⟨[], List.Pairwise.nil⟩⟩

instance : Inhabited (Table κ α) := ⟨{}⟩

/-- The value of a key in a list of entries. -/
def findIn (k : κ) : List (κ × α) → Option α
  | [] => none
  | (key, value) :: rest => if key = k then some value else findIn k rest

/-- The entries with the value of one key set. -/
def insertIn (k : κ) (v : α) : List (κ × α) → List (κ × α)
  | [] => [(k, v)]
  | (key, value) :: rest =>
    if key = k then (k, v) :: rest
    else if KeyOrder.before k key then (k, v) :: (key, value) :: rest
    else (key, value) :: insertIn k v rest

theorem mem_of_mem_insertIn {k : κ} {v : α} {e : κ × α} :
    ∀ {entries : List (κ × α)}, e ∈ insertIn k v entries → e = (k, v) ∨ e ∈ entries
  | [], h => .inl (List.mem_singleton.mp h)
  | (key, value) :: rest, h => by
    simp only [insertIn] at h
    split at h
    · exact (List.mem_cons.mp h).imp id (List.mem_cons_of_mem _)
    · split at h
      · exact List.mem_cons.mp h
      · rcases List.mem_cons.mp h with rfl | h
        · exact .inr List.mem_cons_self
        · exact (mem_of_mem_insertIn h).imp id (List.mem_cons_of_mem _)

theorem sorted_insertIn (k : κ) (v : α) : ∀ {entries : List (κ × α)},
    entries.Pairwise (fun e f => KeyOrder.before e.1 f.1 = true) →
    (insertIn k v entries).Pairwise (fun e f => KeyOrder.before e.1 f.1 = true)
  | [], _ => List.pairwise_singleton ..
  | (key, value) :: rest, h => by
    obtain ⟨first, tail⟩ := List.pairwise_cons.mp h
    simp only [insertIn]
    split
    next e => subst e; exact List.pairwise_cons.mpr ⟨first, tail⟩
    next ne =>
      split
      next lt =>
        refine List.pairwise_cons.mpr ⟨fun e he => ?_, h⟩
        rcases List.mem_cons.mp he with rfl | he
        · exact lt
        · exact KeyOrder.trans lt (first e he)
      next ge =>
        have lt : KeyOrder.before key k = true :=
          ((KeyOrder.total key k).resolve_right fun o => o.elim ne ge)
        refine List.pairwise_cons.mpr ⟨fun e he => ?_, sorted_insertIn k v tail⟩
        rcases mem_of_mem_insertIn he with rfl | he
        · exact lt
        · exact first e he

/-- The value of a key. -/
def find? (t : Table κ α) (k : κ) : Option α := findIn k t.entries

/-- Whether a key has a value. -/
def contains (t : Table κ α) (k : κ) : Bool := (t.find? k).isSome

/-- The table with the value of one key set. -/
def insert (t : Table κ α) (k : κ) (v : α) : Table κ α :=
  ⟨insertIn k v t.entries, sorted_insertIn k v t.sorted⟩

/-- The table of the keys that pass a test. -/
def filterKeys (t : Table κ α) (p : κ → Bool) : Table κ α :=
  ⟨t.entries.filter fun entry => p entry.1, t.sorted.filter _⟩

/-- The table without one key. -/
def erase (t : Table κ α) (k : κ) : Table κ α := t.filterKeys fun key => !decide (key = k)

/-- The table with every value changed in view of its key. -/
def mapEntries (t : Table κ α) (f : κ → α → α) : Table κ α :=
  ⟨t.entries.map fun entry => (entry.1, f entry.1 entry.2), List.pairwise_map.mpr t.sorted⟩

/-- The table with the value of one key changed, if it has one. -/
def modify (t : Table κ α) (k : κ) (f : α → α) : Table κ α :=
  t.mapEntries fun key value => if key = k then f value else value

/-- The table with every value changed. -/
def mapValues (t : Table κ α) (f : α → α) : Table κ α := t.mapEntries fun _ value => f value

/-- The table with a value for a key that has none yet. -/
def insertNew (t : Table κ α) (k : κ) (v : α) : Table κ α :=
  if t.contains k then t else t.insert k v

/-- The keys in order. -/
def keys (t : Table κ α) : List κ := t.entries.map Prod.fst

/-- The values in the order of their keys. -/
def values (t : Table κ α) : List α := t.entries.map Prod.snd

/-- The number of keys. -/
def size (t : Table κ α) : Nat := t.entries.length

/-- The table of a list of pairs, in which a later pair wins. -/
def ofList (pairs : List (κ × α)) : Table κ α :=
  pairs.foldl (fun t pair => t.insert pair.1 pair.2) {}

/-! ## What is found -/

@[simp]
theorem find?_empty (k : κ) : ({} : Table κ α).find? k = none := rfl

theorem findIn_insertIn (k k' : κ) (v : α) : ∀ entries : List (κ × α),
    findIn k' (insertIn k v entries) = if k' = k then some v else findIn k' entries
  | [] => by simp [insertIn, findIn, eq_comm]
  | (key, value) :: rest => by
    by_cases e : key = k
    · by_cases h : k' = k <;> simp [insertIn, findIn, e, h, Ne.symm]
    · by_cases lt : KeyOrder.before k key = true
      · by_cases h : k' = k <;> simp [insertIn, findIn, e, lt, h, Ne.symm]
      · have ih := findIn_insertIn k k' v rest
        by_cases h : k' = k <;> simp_all [insertIn, findIn]

theorem find?_insert (t : Table κ α) (k k' : κ) (v : α) :
    (t.insert k v).find? k' = if k' = k then some v else t.find? k' :=
  findIn_insertIn k k' v t.entries

@[simp]
theorem find?_insert_self (t : Table κ α) (k : κ) (v : α) : (t.insert k v).find? k = some v := by
  simp [find?_insert]

theorem find?_insert_of_ne (t : Table κ α) {k k' : κ} (v : α) (h : k' ≠ k) :
    (t.insert k v).find? k' = t.find? k' := by
  simp [find?_insert, h]

theorem find?_filterKeys (t : Table κ α) (p : κ → Bool) (k : κ) :
    (t.filterKeys p).find? k = if p k then t.find? k else none := by
  obtain ⟨entries, _⟩ := t
  simp only [filterKeys, find?]
  induction entries with
  | nil => simp [findIn]
  | cons entry rest ih =>
    have ih := ih (List.Pairwise.of_cons ‹_›)
    by_cases h : entry.1 = k <;> by_cases hp : p entry.1 = true <;>
      simp_all [findIn]

theorem find?_mapEntries (t : Table κ α) (f : κ → α → α) (k : κ) :
    (t.mapEntries f).find? k = (t.find? k).map (f k) := by
  obtain ⟨entries, _⟩ := t
  simp only [mapEntries, find?]
  induction entries with
  | nil => rfl
  | cons entry rest ih =>
    have ih := ih (List.Pairwise.of_cons ‹_›)
    by_cases h : entry.1 = k <;> simp_all [findIn]

theorem find?_modify (t : Table κ α) (k k' : κ) (f : α → α) :
    (t.modify k f).find? k' = if k' = k then (t.find? k').map f else t.find? k' := by
  rw [modify, find?_mapEntries]
  split <;> simp_all

theorem keys_modify (t : Table κ α) (k : κ) (f : α → α) : (t.modify k f).keys = t.keys := by
  simp [modify, mapEntries, keys]

omit [DecidableEq κ] in
theorem nodup_keys (t : Table κ α) : t.keys.Nodup := by
  refine List.pairwise_map.mpr (t.sorted.imp ?_)
  intro e f lt eq
  rw [eq, KeyOrder.irrefl] at lt
  exact Bool.noConfusion lt

/-- Keys ascend, so an entry is met at its key. -/
theorem mem_entries_iff (t : Table κ α) (k : κ) (v : α) :
    (k, v) ∈ t.entries ↔ t.find? k = some v := by
  have nodup := t.nodup_keys
  obtain ⟨entries, _⟩ := t
  simp only [find?, keys] at nodup ⊢
  induction entries with
  | nil => simp [findIn]
  | cons entry rest ih =>
    obtain ⟨fresh, nodup⟩ := List.nodup_cons.mp nodup
    have ih := ih (List.Pairwise.of_cons ‹_›) nodup
    obtain ⟨key, value⟩ := entry
    by_cases h : key = k
    · subst h
      simp only [findIn, if_true, List.mem_cons, Prod.mk.injEq, true_and, Option.some.injEq]
      constructor
      · rintro (rfl | later)
        · rfl
        · exact absurd (List.mem_map_of_mem later) fresh
      · rintro rfl
        exact .inl rfl
    · simp [findIn, h, Ne.symm h, ih]

omit [DecidableEq κ] in
theorem nodup_entries (t : Table κ α) : t.entries.Nodup :=
  List.Pairwise.of_map Prod.fst (fun _ _ ne eq => ne (congrArg Prod.fst eq)) t.nodup_keys

/-- A table is what it finds: keys ascend, so the entries can stand in one order only. -/
theorem ext_find? {t t' : Table κ α} (same : ∀ k, t.find? k = t'.find? k) : t = t' := by
  have perm : t.entries.Perm t'.entries := by
    refine (List.perm_ext_iff_of_nodup t.nodup_entries t'.nodup_entries).mpr fun ⟨k, v⟩ => ?_
    rw [mem_entries_iff, mem_entries_iff, same]
  have asymm : ∀ e f : κ × α, e ∈ t.entries → f ∈ t'.entries →
      KeyOrder.before e.1 f.1 = true → KeyOrder.before f.1 e.1 = true → e = f := by
    intro e f _ _ lt gt
    have loop := KeyOrder.trans lt gt
    rw [KeyOrder.irrefl] at loop
    exact Bool.noConfusion loop
  have entries : t.entries = t'.entries := perm.eq_of_pairwise asymm t.sorted t'.sorted
  cases t
  cases t'
  cases entries
  rfl

theorem mem_keys_iff (t : Table κ α) (k : κ) : k ∈ t.keys ↔ (t.find? k).isSome = true := by
  simp only [keys, List.mem_map, Prod.exists, exists_and_right, exists_eq_right, mem_entries_iff,
    Option.isSome_iff_exists]

theorem mem_keys_insert (t : Table κ α) (k k' : κ) (v : α) :
    k' ∈ (t.insert k v).keys ↔ k' = k ∨ k' ∈ t.keys := by
  rw [mem_keys_iff, mem_keys_iff, find?_insert]
  split <;> simp_all

theorem insert_entries_ne_nil (t : Table κ α) (k : κ) (v : α) : (t.insert k v).entries ≠ [] :=
  List.ne_nil_of_mem ((mem_entries_iff _ k v).mpr (find?_insert_self t k v))

/-- A row of changes, each of one key: a change that is made twice has to be the same as once. -/
theorem find?_foldl_modify (f : κ → α → α) (idem : ∀ k v, f k (f k v) = f k v) (ks : List κ)
    (t : Table κ α) (k : κ) :
    (ks.foldl (fun t key => t.modify key (f key)) t).find? k =
      if k ∈ ks then (t.find? k).map (f k) else t.find? k := by
  induction ks generalizing t with
  | nil => simp
  | cons key rest ih =>
    simp only [List.foldl_cons, ih, find?_modify, List.mem_cons]
    by_cases h : k = key
    · subst h
      by_cases later : k ∈ rest
      · simp only [later, if_true, true_or, Option.map_map]
        exact congrArg (Option.map · _) (funext fun v => idem k v)
      · simp [later]
    · simp [h]

theorem keys_foldl_modify (f : κ → α → α) (ks : List κ) (t : Table κ α) :
    (ks.foldl (fun t key => t.modify key (f key)) t).keys = t.keys := by
  induction ks generalizing t with
  | nil => rfl
  | cons key rest ih => rw [List.foldl_cons, ih, keys_modify]

/-- Values are counted by their keys. -/
theorem countP_values (t : Table κ α) (p : α → Bool) {ks : List κ} (once : ks.Nodup)
    (listed : ∀ k, k ∈ ks ↔ ∃ v, t.find? k = some v ∧ p v = true) :
    t.values.countP p = ks.length := by
  have counted : ((t.entries.filter fun entry => p entry.2).map Prod.fst).Perm ks := by
    refine (List.perm_ext_iff_of_nodup ?_ once).mpr fun k => ?_
    · exact t.nodup_keys.sublist (List.filter_sublist.map Prod.fst)
    · simp only [listed, List.mem_map, List.mem_filter, Prod.exists, mem_entries_iff,
        exists_and_right, exists_eq_right]
  rw [← counted.length_eq, List.length_map, values, List.countP_map, List.countP_eq_length_filter]
  rfl

/-- A row of insertions whose values depend on the keys alone. -/
theorem find?_foldl_insert (f : κ → α) (ks : List κ) (t : Table κ α) (k : κ) :
    (ks.foldl (fun t key => t.insert key (f key)) t).find? k =
      if k ∈ ks then some (f k) else t.find? k := by
  induction ks generalizing t with
  | nil => simp
  | cons key rest ih =>
    simp only [List.foldl_cons, ih, find?_insert, List.mem_cons]
    by_cases later : k ∈ rest
    · simp [later]
    · by_cases h : k = key <;> simp [h]

theorem find?_ofList_map (f : κ → α) (ks : List κ) (k : κ) :
    (ofList (ks.map fun key => (key, f key))).find? k = if k ∈ ks then some (f k) else none := by
  rw [ofList, List.foldl_map]
  exact find?_foldl_insert f ks {} k

theorem contains_insertNew (t : Table κ α) (k k' : κ) (v : α) :
    (t.insertNew k v).contains k' = true ↔ k' = k ∨ t.contains k' = true := by
  unfold insertNew
  split
  next known => exact ⟨.inr, fun o => o.elim (fun same => same ▸ known) id⟩
  next =>
    rw [contains, find?_insert, contains]
    split <;> simp_all

/-- A row of new values adds their keys. -/
theorem contains_foldl_insertNew {β : Type} (key : β → κ) (value : β → α) (bs : List β)
    (t : Table κ α) (k : κ) :
    (bs.foldl (fun t b => t.insertNew (key b) (value b)) t).contains k = true ↔
      t.contains k = true ∨ ∃ b ∈ bs, key b = k := by
  induction bs generalizing t with
  | nil => simp
  | cons b rest ih =>
    simp only [List.foldl_cons, ih, contains_insertNew, List.mem_cons, or_and_right, exists_or,
      exists_eq_left, eq_comm (a := k), or_assoc, or_left_comm]

/-- What is found after a row of new values was there before or is one of them. -/
theorem find?_foldl_insertNew {β : Type} (key : β → κ) (value : β → α) {bs : List β}
    {t : Table κ α} {k : κ} {v : α}
    (found : (bs.foldl (fun t b => t.insertNew (key b) (value b)) t).find? k = some v) :
    t.find? k = some v ∨ ∃ b ∈ bs, key b = k ∧ value b = v := by
  induction bs generalizing t with
  | nil => exact .inl found
  | cons b rest ih =>
    rcases ih found with before | ⟨b', mem, same⟩
    · simp only [insertNew] at before
      split at before
      next => exact .inl before
      next =>
        rw [find?_insert] at before
        split at before
        next same =>
          exact .inr ⟨b, List.mem_cons_self, same.symm, Option.some.inj before⟩
        next => exact .inl before
    · exact .inr ⟨b', List.mem_cons_of_mem b mem, same⟩

/-- A row of insertions in which no key comes twice. -/
theorem find?_foldl_insert_iff {pairs : List (κ × α)} (once : (pairs.map Prod.fst).Nodup)
    (t : Table κ α) (k : κ) (v : α) :
    (pairs.foldl (fun t pair => t.insert pair.1 pair.2) t).find? k = some v ↔
      (k, v) ∈ pairs ∨ k ∉ pairs.map Prod.fst ∧ t.find? k = some v := by
  induction pairs generalizing t with
  | nil => simp
  | cons pair rest ih =>
    obtain ⟨fresh, once⟩ := List.nodup_cons.mp once
    rw [List.foldl_cons, ih once, find?_insert]
    by_cases h : k = pair.1
    · subst h
      have absent : (pair.1, v) ∉ rest := fun mem =>
        fresh (List.mem_map.mpr ⟨_, mem, rfl⟩)
      simp [absent, fresh, Prod.ext_iff, eq_comm]
    · simp [h, Prod.ext_iff]

/-- Where no key comes twice the table of a list finds exactly what is listed. -/
theorem find?_ofList_iff {pairs : List (κ × α)} (once : (pairs.map Prod.fst).Nodup) (k : κ)
    (v : α) : (ofList pairs).find? k = some v ↔ (k, v) ∈ pairs := by
  rw [ofList, find?_foldl_insert_iff once]
  simp

theorem perm_entries_ofList {pairs : List (κ × α)} (once : (pairs.map Prod.fst).Nodup) :
    (ofList pairs).entries.Perm pairs := by
  have distinct : pairs.Nodup :=
    List.Pairwise.of_map Prod.fst (fun _ _ ne eq => ne (congrArg Prod.fst eq)) once
  refine (List.perm_ext_iff_of_nodup (ofList pairs).nodup_entries distinct).mpr ?_
  rintro ⟨k, v⟩
  rw [mem_entries_iff, find?_ofList_iff once]

end Table

/-- A set of keys, each kept once. -/
structure KeySet (κ : Type) where
  toList : List κ
  nodup : toList.Nodup
deriving Repr, DecidableEq

namespace KeySet

variable {κ : Type} [DecidableEq κ]

instance {κ : Type} : EmptyCollection (KeySet κ) := ⟨⟨[], List.nodup_nil⟩⟩

omit [DecidableEq κ] in
@[simp]
theorem toList_empty : ({} : KeySet κ).toList = [] := rfl

instance {κ : Type} : Inhabited (KeySet κ) := ⟨{}⟩

/-- The row of keys with one more key at its place. -/
def insertIn [KeyOrder κ] (k : κ) : List κ → List κ
  | [] => [k]
  | key :: rest =>
    if KeyOrder.before k key then k :: key :: rest else key :: insertIn k rest

omit [DecidableEq κ] in
theorem insertIn_perm [KeyOrder κ] (k : κ) : ∀ ks : List κ, (insertIn k ks).Perm (k :: ks)
  | [] => .refl _
  | key :: rest => by
    simp only [insertIn]
    split
    · exact .refl _
    · exact ((insertIn_perm k rest).cons key).trans (.swap ..)

/-- Whether a key is in the set. -/
def contains (s : KeySet κ) (k : κ) : Bool := s.toList.any fun key => decide (key = k)

theorem contains_iff (s : KeySet κ) (k : κ) : s.contains k = true ↔ k ∈ s.toList := by
  simp [contains]

/-- The set with one more key. -/
def insert [KeyOrder κ] (s : KeySet κ) (k : κ) : KeySet κ :=
  if h : s.contains k then s
  else ⟨insertIn k s.toList, (insertIn_perm k _).nodup_iff.mpr
    (List.nodup_cons.mpr ⟨fun mem => h ((contains_iff s k).mpr mem), s.nodup⟩)⟩

/-- The set of the keys that pass a test. -/
def filter (s : KeySet κ) (p : κ → Bool) : KeySet κ := ⟨s.toList.filter p, s.nodup.filter _⟩

/-- The set without one key. -/
def erase (s : KeySet κ) (k : κ) : KeySet κ := s.filter fun key => !decide (key = k)

/-- The set with all keys of a list added. -/
def insertAll [KeyOrder κ] (s : KeySet κ) (ks : List κ) : KeySet κ := ks.foldl insert s

/-- The set of the keys of a list. -/
def ofList [KeyOrder κ] (ks : List κ) : KeySet κ := insertAll {} ks

/-- The number of keys. -/
def size (s : KeySet κ) : Nat := s.toList.length

/-- Whether the set has no key. -/
def isEmpty (s : KeySet κ) : Bool := s.toList.isEmpty

/-- The first key. -/
def first? (s : KeySet κ) : Option κ := s.toList.head?

@[simp]
theorem mem_insert [KeyOrder κ] (s : KeySet κ) (k k' : κ) :
    k' ∈ (s.insert k).toList ↔ k' = k ∨ k' ∈ s.toList := by
  simp only [insert]
  split
  next h =>
    have mem := (contains_iff s k).mp h
    exact ⟨.inr, fun o => o.elim (· ▸ mem) id⟩
  next => rw [(insertIn_perm k s.toList).mem_iff, List.mem_cons]

theorem insert_of_mem [KeyOrder κ] {s : KeySet κ} {k : κ} (mem : k ∈ s.toList) : s.insert k = s :=
  dif_pos ((contains_iff s k).mpr mem)

@[simp]
theorem mem_insertAll [KeyOrder κ] (s : KeySet κ) (ks : List κ) (k : κ) :
    k ∈ (s.insertAll ks).toList ↔ k ∈ s.toList ∨ k ∈ ks := by
  simp only [insertAll]
  induction ks generalizing s with
  | nil => simp
  | cons key rest ih => simp [ih, or_assoc, or_comm, or_left_comm]

omit [DecidableEq κ] in
@[simp]
theorem mem_filter (s : KeySet κ) (p : κ → Bool) (k : κ) :
    k ∈ (s.filter p).toList ↔ k ∈ s.toList ∧ p k = true :=
  List.mem_filter

end KeySet

/-- A pair with the smaller number first, so that it stands for both orders. -/
def unorderedPair (a b : Nat) : Nat × Nat := (min a b, max a b)

theorem unorderedPair_comm (a b : Nat) : unorderedPair a b = unorderedPair b a := by
  simp [unorderedPair, Nat.min_comm, Nat.max_comm]

theorem unorderedPair_le (a b : Nat) : (unorderedPair a b).1 ≤ (unorderedPair a b).2 := by
  simp only [unorderedPair]
  omega

theorem unorderedPair_eq_iff {a b c d : Nat} :
    unorderedPair a b = unorderedPair c d ↔ a = c ∧ b = d ∨ a = d ∧ b = c := by
  simp only [unorderedPair, Prod.mk.injEq]
  omega

end Discourse
