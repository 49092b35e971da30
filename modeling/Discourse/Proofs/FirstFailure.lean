import Discourse.Fault
/-!
# Rows whose elements may fail

A computation that goes along a row and stops at the first element on which it fails.  It succeeds
if it does so on every element (`mapM_eq_ok_iff`), and otherwise fails as it does on the first
element of those on which it fails (`mapM_eq_error_iff`).  Which one that is, with its place, is
said by a relation that goes along the row in the same way (`FirstAt`).  A fold whose steps may
fail does so as one of its steps does (`exists_mem_of_foldlM_eq_error`).
-/

namespace Discourse

/-! ## The first of several -/

/-- An element that has a property while none before it has, at its place. -/
inductive FirstAt {α : Type} (p : α → Prop) : List α → Nat → α → Prop
  | here {x : α} {xs : List α} (holds : p x) : FirstAt p (x :: xs) 0 x
  | later {x y : α} {xs : List α} {k : Nat} (fails : ¬p x) (rest : FirstAt p xs k y) :
    FirstAt p (x :: xs) (k + 1) y

namespace FirstAt

variable {α : Type} {p q : α → Prop} {xs ys : List α} {k : Nat} {x : α}

theorem holds (first : FirstAt p xs k x) : p x := by
  induction first with
  | here holds => exact holds
  | later _ _ ih => exact ih

theorem getElem? (first : FirstAt p xs k x) : xs[k]? = some x := by
  induction first with
  | here => rfl
  | later _ _ ih => rw [List.getElem?_cons_succ, ih]

theorem mem (first : FirstAt p xs k x) : x ∈ xs := List.mem_of_getElem? first.getElem?

/-- If some element has a property, one is the first. -/
theorem exists_of_mem (mem : x ∈ xs) (holds : p x) : ∃ k y, FirstAt p xs k y := by
  induction xs with
  | nil => cases mem
  | cons z rest ih =>
    by_cases first : p z
    · exact ⟨0, z, .here first⟩
    · rcases List.mem_cons.mp mem with rfl | mem
      · exact absurd holds first
      · obtain ⟨k, y, found⟩ := ih mem
        exact ⟨k + 1, y, .later first found⟩

/-- Only the elements of the row matter. -/
theorem congr (first : FirstAt p xs k x) (same : ∀ y ∈ xs, p y ↔ q y) : FirstAt q xs k x := by
  induction first with
  | here holds => exact .here ((same _ List.mem_cons_self).mp holds)
  | later fails _ ih =>
    obtain ⟨here, rest⟩ := List.forall_mem_cons.mp same
    exact .later (mt here.mpr fails) (ih rest)

theorem append_left (first : FirstAt p xs k x) : FirstAt p (xs ++ ys) k x := by
  induction first with
  | here holds => exact .here holds
  | later fails _ ih => exact .later fails ih

theorem append_cases (first : FirstAt p (xs ++ ys) k x) :
    FirstAt p xs k x ∨ (∀ y ∈ xs, ¬p y) ∧ ∃ j, k = xs.length + j ∧ FirstAt p ys j x := by
  induction xs generalizing k with
  | nil => exact .inr ⟨fun y mem => absurd mem List.not_mem_nil, k, (Nat.zero_add k).symm, first⟩
  | cons y rest ih =>
    cases first with
    | here holds => exact .inl (.here holds)
    | later fails first =>
      rcases ih first with inside | ⟨none, j, rfl, behind⟩
      · exact .inl (.later fails inside)
      · refine .inr ⟨List.forall_mem_cons.mpr ⟨fails, none⟩, j, ?_, behind⟩
        rw [List.length_cons, Nat.add_right_comm]

section Map

variable {β : Type} {f : α → β} {r : β → Prop}

theorem map (first : FirstAt (fun x => r (f x)) xs k x) : FirstAt r (xs.map f) k (f x) := by
  induction first with
  | here holds => exact .here holds
  | later fails _ ih => exact .later fails ih

theorem of_map {y : β} (first : FirstAt r (xs.map f) k y) :
    ∃ x, f x = y ∧ FirstAt (fun x => r (f x)) xs k x := by
  induction xs generalizing k with
  | nil => cases first
  | cons x rest ih =>
    rw [List.map_cons] at first
    cases first with
    | here holds => exact ⟨x, rfl, .here holds⟩
    | later fails first =>
      obtain ⟨x', same, first⟩ := ih first
      exact ⟨x', same, .later fails first⟩

end Map

end FirstAt

/-! ## Rows -/

section Rows

variable {ε α β γ : Type} {f : α → Except ε β} {xs : List α}

/-- A row goes through if each element does. -/
theorem mapM_eq_ok_iff {ys : List β} : xs.mapM f = .ok ys ↔ xs.map f = ys.map .ok := by
  induction xs generalizing ys with
  | nil => cases ys <;> simp [pure, Except.pure]
  | cons x xs ih =>
    rw [List.mapM_cons, bind_eq_ok_iff]
    simp only [bind_eq_ok_iff, ih]
    constructor
    · rintro ⟨y, first, others, rest, done⟩
      cases done
      rw [List.map_cons, List.map_cons, first, rest]
    · intro both
      cases ys with
      | nil => cases both
      | cons y ys =>
        obtain ⟨first, rest⟩ := List.cons.inj both
        exact ⟨y, first, ys, rest, rfl⟩

theorem exists_mem_of_mapM_eq_ok {ys : List β} {y : β} (passes : xs.mapM f = .ok ys)
    (mem : y ∈ ys) : ∃ x ∈ xs, f x = .ok y := by
  have listed := List.mem_map_of_mem (f := Except.ok (ε := ε)) mem
  rw [← mapM_eq_ok_iff.mp passes] at listed
  exact List.mem_map.mp listed

theorem length_of_mapM_eq_ok {ys : List β} (passes : xs.mapM f = .ok ys) :
    ys.length = xs.length := by
  have same := congrArg List.length (mapM_eq_ok_iff.mp passes)
  rw [List.length_map, List.length_map] at same
  exact same.symm

/-- What each element has in common with its result, the row has in common with the results. -/
theorem map_eq_of_mapM_eq_ok {δ : Type} {v : α → δ} {w : β → δ} {ys : List β}
    (passes : xs.mapM f = .ok ys) (each : ∀ x y, f x = .ok y → v x = w y) :
    xs.map v = ys.map w := by
  induction xs generalizing ys with
  | nil =>
    cases passes
    rfl
  | cons x xs ih =>
    rw [List.mapM_cons] at passes
    obtain ⟨y, here, passes⟩ := bind_eq_ok_iff.mp passes
    obtain ⟨others, there, done⟩ := bind_eq_ok_iff.mp passes
    cases done
    rw [List.map_cons, List.map_cons, each x y here, ih there]

/-- A row fails as it does on the first element on which it fails. -/
theorem mapM_eq_error_iff {e : ε} :
    xs.mapM f = .error e ↔
      ∃ k x, FirstAt (fun x => ∃ e, f x = .error e) xs k x ∧ f x = .error e := by
  induction xs with
  | nil =>
    constructor
    · intro fails
      cases fails
    · rintro ⟨k, x, first, -⟩
      cases first
  | cons x xs ih =>
    rw [List.mapM_cons]
    cases head : f x with
    | error e' =>
      constructor
      · intro fails
        cases fails
        exact ⟨0, x, .here ⟨e, head⟩, head⟩
      · rintro ⟨k, y, first, fails⟩
        cases first with
        | here =>
          cases head.symm.trans fails
          rfl
        | later passes => exact absurd ⟨e', head⟩ passes
    | ok b =>
      have rest : (do let bs ← xs.mapM f; pure (b :: bs)) = .error e ↔ xs.mapM f = .error e :=
        map_eq_error_iff (f := (b :: ·))
      refine Iff.trans rest (ih.trans ?_)
      constructor
      · rintro ⟨k, y, first, fails⟩
        refine ⟨k + 1, y, .later ?_ first, fails⟩
        rintro ⟨e', fails'⟩
        cases head.symm.trans fails'
      · rintro ⟨k, y, first, fails⟩
        cases first with
        | here => cases head.symm.trans fails
        | later _ first => exact ⟨_, y, first, fails⟩

theorem exists_mem_of_mapM_eq_error {e : ε} (fails : xs.mapM f = .error e) :
    ∃ x ∈ xs, f x = .error e := by
  obtain ⟨k, x, first, fails⟩ := mapM_eq_error_iff.mp fails
  exact ⟨x, first.mem, fails⟩

theorem exists_mapM (passes : ∀ x ∈ xs, ∃ y, f x = .ok y) : ∃ ys, xs.mapM f = .ok ys := by
  cases outcome : xs.mapM f with
  | ok ys => exact ⟨ys, rfl⟩
  | error e =>
    obtain ⟨x, mem, fails⟩ := exists_mem_of_mapM_eq_error outcome
    obtain ⟨y, passes⟩ := passes x mem
    cases passes.symm.trans fails

/-- If there is but one way to fail, a row fails as soon as one element does. -/
theorem mapM_eq_error {e : ε} (only : ∀ x e', f x = .error e' → e' = e) {x : α} (mem : x ∈ xs)
    (fails : f x = .error e) : xs.mapM f = .error e := by
  cases outcome : xs.mapM f with
  | ok ys =>
    have each : f x ∈ xs.map f := List.mem_map_of_mem mem
    rw [mapM_eq_ok_iff.mp outcome, fails] at each
    obtain ⟨y, -, same⟩ := List.mem_map.mp each
    cases same
  | error e' =>
    obtain ⟨x', -, fails'⟩ := exists_mem_of_mapM_eq_error outcome
    rw [only x' e' fails']

theorem mapM_congr_map {g : γ → Except ε β} {zs : List γ} (same : xs.map f = zs.map g) :
    xs.mapM f = zs.mapM g := by
  induction xs generalizing zs with
  | nil =>
    rw [List.map_nil, eq_comm, List.map_eq_nil_iff] at same
    rw [same, List.mapM_nil, List.mapM_nil]
  | cons x xs ih =>
    cases zs with
    | nil => cases same
    | cons z zs =>
      obtain ⟨first, rest⟩ := List.cons.inj same
      rw [List.mapM_cons, List.mapM_cons, first, ih rest]

/-- A row that goes through where another does, element by element, goes through with it. -/
theorem mapM_of_map_eq {δ : Type} {g : γ → Except ε β} {v : α → δ} {w : γ → δ} {zs : List γ}
    {ys : List β} (same : xs.map v = zs.map w)
    (each : ∀ x z y, v x = w z → f x = .ok y → g z = .ok y) (passes : xs.mapM f = .ok ys) :
    zs.mapM g = .ok ys := by
  induction xs generalizing zs ys with
  | nil =>
    rw [List.map_nil, eq_comm, List.map_eq_nil_iff] at same
    rw [same]
    exact passes
  | cons x xs ih =>
    cases zs with
    | nil => cases same
    | cons z zs =>
      obtain ⟨first, rest⟩ := List.cons.inj same
      rw [List.mapM_cons] at passes ⊢
      obtain ⟨y, here, passes⟩ := bind_eq_ok_iff.mp passes
      obtain ⟨others, there, done⟩ := bind_eq_ok_iff.mp passes
      exact bind_eq_ok_iff.mpr ⟨y, each x z y first here,
        bind_eq_ok_iff.mpr ⟨others, ih rest there, done⟩⟩

theorem mapM_map_zip (g : α → β → γ) :
    xs.mapM (fun x => (f x).map (g x)) =
      (xs.mapM f).map fun ys => (xs.zip ys).map fun (x, y) => g x y := by
  induction xs with
  | nil => rfl
  | cons x xs ih =>
    rw [List.mapM_cons, List.mapM_cons, ih]
    cases f x with
    | error e => rfl
    | ok y => cases xs.mapM f <;> rfl

/-- Two computations in a row, seen through what a view shows of their results, if that is all the
second one goes by. -/
theorem map_bind_eq_ok_iff {σ ρ τ υ : Type} {first : Except ε σ} {next : σ → Except ε ρ}
    (view : σ → τ) (view' : ρ → υ) (relates : τ → υ → Prop)
    (each : ∀ s y, (next s).map view' = .ok y ↔ relates (view s) y) (y : υ) :
    (first >>= next).map view' = .ok y ↔ ∃ x, first.map view = .ok x ∧ relates x y := by
  cases first with
  | error e => simp [bind, Except.bind, Except.map]
  | ok s =>
    rw [show ((Except.ok s : Except ε σ) >>= next) = next s from rfl, each]
    simp [Except.map]

theorem foldlM_range_succ {σ : Type} (step : σ → Nat → Except ε σ) (s : σ) (n : Nat) :
    (List.range (n + 1)).foldlM step s =
      (List.range n).foldlM step s >>= fun s' => step s' n := by
  rw [List.range_succ, List.foldlM_append]
  exact congrArg _ (funext fun s' => bind_pure (step s' n))

/-- A computation that hands a state along a row stops if it does so at one of the elements. -/
theorem exists_mem_of_foldlM_eq_error {σ : Type} {step : σ → α → Except ε σ} {s : σ} {e : ε}
    (fails : xs.foldlM step s = .error e) : ∃ x ∈ xs, ∃ s', step s' x = .error e := by
  induction xs generalizing s with
  | nil => cases fails
  | cons x rest ih =>
    rw [List.foldlM_cons] at fails
    cases first : step s x with
    | error e' =>
      rw [first] at fails
      cases fails
      exact ⟨x, List.mem_cons_self, s, first⟩
    | ok s' =>
      rw [first] at fails
      obtain ⟨y, mem, at_y⟩ := ih fails
      exact ⟨y, List.mem_cons_of_mem x mem, at_y⟩

/-- What stands at one place of two rows that are the same in some view. -/
theorem exists_getElem?_of_map_eq {f : α → γ} {g : β → γ} {ys : List β}
    (same : xs.map f = ys.map g) {i : Nat} {x : α} (here : xs[i]? = some x) :
    ∃ y, ys[i]? = some y ∧ f x = g y := by
  have place := congrArg (fun row => row[i]?) same
  rw [List.getElem?_map, List.getElem?_map, here] at place
  obtain ⟨y, there, value⟩ := Option.map_eq_some_iff.mp place.symm
  exact ⟨y, there, value.symm⟩

theorem eq_ok_of_mem_zip {ys : List β} {x : α × β} (passes : xs.mapM f = .ok ys)
    (mem : x ∈ xs.zip ys) : f x.1 = .ok x.2 := by
  obtain ⟨i, place⟩ := List.getElem?_of_mem mem
  obtain ⟨here, there⟩ := List.getElem?_zip_eq_some.mp place
  obtain ⟨y, there', same⟩ := exists_getElem?_of_map_eq (mapM_eq_ok_iff.mp passes) here
  cases there.symm.trans there'
  exact same

end Rows

end Discourse
