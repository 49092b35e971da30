import Discourse.CommandLine.Disk
import Discourse.Proofs.Text.Lines
/-!
# Files written one after the other

Where a path leads depends on the directories alone, and a file that is written leaves these as they
are.  Below one directory different names lead to different places (`route?_joinPath`).  Of several
files written to one place the last one is found there, whatever was written in between, so all of
them are found again exactly if those at one place have one text (`read?_writeAll_iff`).
-/

namespace Discourse.CommandLine

/-- A name that a path can have at its end for a file. -/
structure IsFileName (name : String) : Prop where
  plain : '/' ∉ name.toList
  nonempty : name ≠ ""
  notHere : name ≠ "."
  notAbove : name ≠ ".."

/-! ## Paths below a directory -/

section Paths

variable {name : String}

theorem startsWith_slash_eq_false (plain : '/' ∉ name.toList) :
    Text.startsWith "/" name = false := by
  show (Text.after? ['/'] name.toList).isSome = false
  cases chars : name.toList with
  | nil => rfl
  | cons c rest =>
    rw [chars] at plain
    have ne : '/' ≠ c := fun eq => plain (eq ▸ List.mem_cons_self)
    rw [Text.after?, if_neg ne]
    rfl

/-- The names on the way to a file below a directory: those on the way to the directory come first,
whatever the file is called. -/
theorem exists_splitOn_joinPath (directory : String) : ∃ front : List String, ∀ name : String,
    '/' ∉ name.toList → Text.splitOn '/' (joinPath directory name) = front ++ [name] := by
  have single : ∀ name : String, '/' ∉ name.toList →
      (Text.splitAtMarks '/' name.toList).map String.ofList = [name] := by
    intro name plain
    rw [Text.splitAtMarks_of_not_mem plain, List.map_singleton, String.ofList_toList]
  have below : ∀ (cs : List Char) (path name : String), '/' ∉ name.toList →
      path.toList = cs ++ '/' :: name.toList →
      Text.splitOn '/' path = (Text.splitAtMarks '/' cs).map String.ofList ++ [name] := by
    intro cs path name plain chars
    rw [Text.splitOn, chars, Text.splitAtMarks_append_mark, List.map_append, single name plain]
  by_cases empty : directory.isEmpty = true
  · refine ⟨[], fun name plain => ?_⟩
    rw [joinPath, if_pos (by rw [empty, Bool.true_or]), Text.splitOn, single name plain]
    rfl
  · have unjoined : ∀ name : String, '/' ∉ name.toList →
        ¬ (directory.isEmpty || Text.startsWith "/" name) = true := by
      intro name plain
      rw [startsWith_slash_eq_false plain, Bool.or_false]
      exact empty
    by_cases slash : directory.toList.getLast? = some '/'
    · refine ⟨(Text.splitAtMarks '/' directory.toList.dropLast).map String.ofList,
        fun name plain => below _ _ name plain ?_⟩
      have chars : directory.toList.dropLast ++ ['/'] = directory.toList :=
        List.dropLast_append_getLast? '/' slash
      rw [joinPath, if_neg (unjoined name plain), slash]
      show (directory ++ name).toList = _
      rw [String.toList_append, ← chars, List.dropLast_concat, List.append_assoc,
        List.singleton_append]
    · refine ⟨(Text.splitAtMarks '/' directory.toList).map String.ofList, fun name plain => ?_⟩
      rw [joinPath, if_neg (unjoined name plain)]
      split
      next last => exact absurd last slash
      next => exact below _ _ name plain (by simp)

end Paths

namespace FileTree

variable {tree : FileTree}

theorem follow?_append_singleton {name : String} (file : IsFileName name) (route : Route)
    (front : List String) :
    tree.follow? route (front ++ [name]) = (tree.follow? route front).bind fun base =>
      if tree.isDirectory base then some (base ++ [name]) else none := by
  induction front generalizing route with
  | nil =>
    show tree.follow? route [name] = if tree.isDirectory route then some (route ++ [name]) else none
    rw [follow?]
    cases tree.isDirectory route with
    | false => rfl
    | true =>
      rw [Bool.not_true, if_neg Bool.false_ne_true, if_neg (not_or.mpr ⟨file.nonempty, file.notHere⟩),
        if_neg file.notAbove]
      rfl
  | cons first rest ih =>
    rw [List.cons_append, follow?, follow?]
    split
    · rfl
    · split
      · exact ih route
      · split
        · split
          · rfl
          · exact ih route.dropLast
        · exact ih (route ++ [first])

/-- Below one directory a file lies under its name. -/
theorem route?_joinPath (tree : FileTree) (directory : String) : ∃ base? : Option Route,
    ∀ name, IsFileName name →
      tree.route? (joinPath directory name) = base?.map fun base => base ++ [name] := by
  obtain ⟨front, split_eq⟩ := exists_splitOn_joinPath directory
  have followed : ∀ name, IsFileName name → tree.follow? [] (front ++ [name]) =
      ((tree.follow? [] front).filter tree.isDirectory).map fun base => base ++ [name] := by
    intro name file
    rw [follow?_append_singleton file]
    cases tree.follow? [] front with
    | none => rfl
    | some base =>
      rw [Option.bind_some, Option.filter_some]
      cases tree.isDirectory base <;> rfl
  cases front with
  | nil =>
    refine ⟨(tree.follow? [] []).filter tree.isDirectory, fun name file => ?_⟩
    rw [route?, split_eq name file.plain, ← followed name file]
    split
    next same => exact absurd (List.cons.inj same).1 file.nonempty
    next same => cases same
    next => rfl
  | cons first rest =>
    by_cases absolute : first = ""
    · refine ⟨none, fun name file => ?_⟩
      rw [route?, split_eq name file.plain, absolute, Option.map_none]
      cases rest <;> rfl
    · refine ⟨(tree.follow? [] (first :: rest)).filter tree.isDirectory, fun name file => ?_⟩
      rw [route?, split_eq name file.plain, ← followed name file]
      split
      next same => exact absurd (List.cons.inj same).1 absolute
      next same => exact absurd (List.cons.inj same).1 absolute
      next => rfl

/-- Different names below one directory lead to different places. -/
theorem name_eq_of_route?_eq {directory name name' : String} (file : IsFileName name)
    (file' : IsFileName name') (same : tree.route? (joinPath directory name) =
      tree.route? (joinPath directory name'))
    (found : (tree.route? (joinPath directory name)).isSome = true) : name = name' := by
  obtain ⟨base?, route⟩ := tree.route?_joinPath directory
  rw [route name file] at found
  rw [route name file, route name' file'] at same
  cases base? with
  | none => cases found
  | some base =>
    exact List.singleton_inj.mp (List.append_cancel_left (Option.some.inj same))

/-! ## One file -/

theorem route?_congr {tree tree' : FileTree} (same : tree.directories = tree'.directories)
    (path : String) : tree.route? path = tree'.route? path := by
  have directory : tree.isDirectory = tree'.isDirectory := by
    funext route
    rw [isDirectory, isDirectory, same]
  have followed : ∀ (names : List String) (route : Route),
      tree.follow? route names = tree'.follow? route names := by
    intro names
    induction names with
    | nil => intro route; rfl
    | cons name rest ih =>
      intro route
      simp only [follow?, directory, ih]
  simp only [route?, followed]

/-- A file can be written at a path. -/
def CanWrite (tree : FileTree) (path : String) : Prop :=
  ∃ route, tree.route? path = some route ∧ tree.isDirectory route = false

theorem write?_eq {path : String} {route : Route} (leads : tree.route? path = some route)
    (free : tree.isDirectory route = false) (text : String) :
    tree.write? path text = some { tree with files := tree.files.insert route text } := by
  rw [write?, leads]
  dsimp only
  rw [free, if_neg Bool.false_ne_true]

theorem canWrite_of_isSome_write? {path text : String}
    (possible : (tree.write? path text).isSome = true) : tree.CanWrite path := by
  rw [write?] at possible
  cases leads : tree.route? path with
  | none =>
    rw [leads] at possible
    cases possible
  | some route =>
    rw [leads] at possible
    dsimp only at possible
    cases directory : tree.isDirectory route with
    | true =>
      rw [directory, if_pos rfl] at possible
      cases possible
    | false => exact ⟨route, leads, directory⟩

theorem CanWrite.of_directories_eq {tree' : FileTree} {path : String} (can : tree.CanWrite path)
    (same : tree'.directories = tree.directories) : tree'.CanWrite path := by
  obtain ⟨route, leads, free⟩ := can
  refine ⟨route, (route?_congr same path).trans leads, ?_⟩
  rw [isDirectory, same]
  exact free

/-! ## Many files -/

/-- The tree with files written one after the other. -/
def writeAll? (tree : FileTree) (files : List (String × String)) : Option FileTree :=
  files.foldlM (fun tree file => tree.write? file.1 file.2) tree

theorem writeAll?_append (tree : FileTree) (files more : List (String × String)) :
    tree.writeAll? (files ++ more) = (tree.writeAll? files).bind fun tree => tree.writeAll? more :=
  List.foldlM_append

/-- At every path the last file is found that was written to the same place, and what was there
before if none was. -/
theorem exists_writeAll? {files : List (String × String)}
    (can : ∀ file ∈ files, tree.CanWrite file.1) :
    ∃ final, tree.writeAll? files = some final ∧ final.directories = tree.directories ∧
      ∀ path, (∃ last ∈ files, tree.route? last.1 = tree.route? path ∧
          final.read? path = some last.2) ∨
        (∀ file ∈ files, tree.route? file.1 ≠ tree.route? path) ∧
          final.read? path = tree.read? path := by
  induction files generalizing tree with
  | nil => exact ⟨tree, rfl, rfl, fun path => .inr ⟨fun file mem => absurd mem List.not_mem_nil, rfl⟩⟩
  | cons file rest ih =>
    obtain ⟨⟨route, leads, free⟩, can⟩ := List.forall_mem_cons.mp can
    have first := write?_eq leads free file.2
    generalize written : { tree with files := tree.files.insert route file.2 } = next at first
    have directories : next.directories = tree.directories := by rw [← written]
    obtain ⟨final, rest_eq, kept, found⟩ :=
      ih fun other mem => (can other mem).of_directories_eq directories
    have routes := route?_congr directories
    refine ⟨final, ?_, kept.trans directories, fun path => ?_⟩
    · rw [writeAll?, List.foldlM_cons, first]
      exact rest_eq
    · rcases found path with ⟨last, mem, same, read⟩ | ⟨apart, read⟩
      · rw [routes, routes] at same
        exact .inl ⟨last, List.mem_cons_of_mem file mem, same, read⟩
      · have place : next.read? path = (tree.route? path).bind fun found =>
            if found = route then some file.2 else tree.files.find? found := by
          rw [read?, routes, ← written]
          exact congrArg _ (funext fun found => Table.find?_insert tree.files route found file.2)
        by_cases here : tree.route? file.1 = tree.route? path
        · refine .inl ⟨file, List.mem_cons_self, here, ?_⟩
          rw [read, place, ← here, leads, Option.bind_some, if_pos rfl]
        · refine .inr ⟨List.forall_mem_cons.mpr ⟨here, fun other mem => ?_⟩, ?_⟩
          · rw [← routes, ← routes]
            exact apart other mem
          · rw [read, place, read?]
            cases elsewhere : tree.route? path with
            | none => rfl
            | some found =>
              have ne : found ≠ route := by
                rintro rfl
                exact here (leads.trans elsewhere.symm)
              rw [Option.bind_some, if_neg ne, Option.bind_some]

/-- All files written are found again exactly if those that lie at one place have one text. -/
theorem read?_writeAll_iff {files : List (String × String)}
    (can : ∀ file ∈ files, tree.CanWrite file.1) :
    ∃ final, tree.writeAll? files = some final ∧
      ((∀ file ∈ files, final.read? file.1 = some file.2) ↔
        ∀ file ∈ files, ∀ other ∈ files,
          tree.route? file.1 = tree.route? other.1 → file.2 = other.2) := by
  obtain ⟨final, written, directories, found⟩ := exists_writeAll? can
  refine ⟨final, written, fun all file mem other mem' same => ?_, fun agree file mem => ?_⟩
  · have places := route?_congr directories
    have one : final.read? file.1 = final.read? other.1 := by
      rw [read?, read?, places, places, same]
    rw [all file mem, all other mem'] at one
    exact Option.some.inj one
  · rcases found file.1 with ⟨last, mem', same, read⟩ | ⟨apart, -⟩
    · rw [read, agree last mem' file mem same]
    · exact absurd rfl (apart file mem)

end FileTree

end Discourse.CommandLine
