import Discourse.Table
import Discourse.Text.Blank
/-!
# Files

The commands reach files through a `Disk`, which says how a file is read and written.  One disk is
a `FileTree`, a value that holds whole files under normal paths; it lets a run be computed, and
reasoned about, without any device.
-/

namespace Discourse.CommandLine

/-- The ways to reach files, the environment and the output. -/
structure Disk (m : Type → Type) where
  /-- The text of a file; none if it cannot be read as text. -/
  read? : String → m (Option String)
  isFile : String → m Bool
  /-- Makes a directory with all directories above it; tells whether it is there afterwards. -/
  makeDirectory : String → m Bool
  /-- Writes a whole file; tells whether that was possible. -/
  write : String → String → m Bool
  /-- A variable of the environment. -/
  setting? : String → m (Option String)
  /-- Prints one line. -/
  say : String → m Unit

/-- A path below a directory. -/
def joinPath (directory name : String) : String :=
  if directory.isEmpty || Text.startsWith "/" name then name
  else match directory.toList.getLast? with
    | some '/' => directory ++ name
    | _ => directory ++ "/" ++ name

/-! ## File trees -/

/-- A path as the names on the way to it. -/
abbrev Route := List String

/-- Routes are kept in the order of their texts. -/
instance : KeyOrder Route :=
  KeyOrder.comap (fun route : List String => ("/".intercalate route, route))
    fun _ _ h => congrArg Prod.snd h

/-- Files and directories below one root, and what was printed. -/
structure FileTree where
  files : Table Route String := {}
  /-- The directories, the root apart. -/
  directories : KeySet Route := {}
  /-- The variables of the environment. -/
  settings : Table String String := {}
  /-- The lines printed, the last one first. -/
  printed : List String := []
deriving Inhabited

namespace FileTree

/-- Whether a route leads to a directory. -/
def isDirectory (tree : FileTree) (route : Route) : Bool :=
  route.isEmpty || tree.directories.contains route

/-- The route that names lead to from a directory.  All that is passed on the way has to be a
directory. -/
def follow? (tree : FileTree) (route : Route) : List String → Option Route
  | [] => some route
  | name :: rest =>
    if !tree.isDirectory route then none
    else if name = "" ∨ name = "." then tree.follow? route rest
    else if name = ".." then
      if route.isEmpty then none else tree.follow? route.dropLast rest
    else tree.follow? (route ++ [name]) rest

/-- The route of a path below the root. -/
def route? (tree : FileTree) (path : String) : Option Route :=
  match Text.splitOn '/' path with
  | [""] => none
  | "" :: _ :: _ => none
  | names => tree.follow? [] names

/-- The text of the file at a path. -/
def read? (tree : FileTree) (path : String) : Option String :=
  (tree.route? path).bind tree.files.find?

/-- The tree with a directory along the names from a directory on; none if a file is in the
way. -/
def extend? (tree : FileTree) (route : Route) : List String → Option FileTree
  | [] => some tree
  | name :: rest =>
    if name = "" ∨ name = "." then tree.extend? route rest
    else if name = ".." then
      if route.isEmpty then none else tree.extend? route.dropLast rest
    else
      let next := route ++ [name]
      if tree.files.contains next then none
      else extend? { tree with directories := tree.directories.insert next } next rest

/-- The tree with a directory at a path. -/
def makeDirectory? (tree : FileTree) (path : String) : Option FileTree :=
  match Text.splitOn '/' path with
  | "" :: _ :: _ => none
  | names => tree.extend? [] names

/-- The tree with a file at a path.  Its directory has to be there, and it may not be a directory
itself. -/
def write? (tree : FileTree) (path text : String) : Option FileTree :=
  match tree.route? path with
  | none => none
  | some route =>
    if tree.isDirectory route then none
    else some { tree with files := tree.files.insert route text }

/-- The tree with a file and the directories above it. -/
def place? (tree : FileTree) (path text : String) : Option FileTree :=
  let names := Text.splitOn '/' path
  (tree.extend? [] names.dropLast).bind fun tree => tree.write? path text

/-- The files right in a directory, by name. -/
def filesIn (tree : FileTree) (directory : Route) : List (String × String) :=
  tree.files.entries.filterMap fun (route, text) =>
    match route.getLast? with
    | some name => if route.dropLast = directory then some (name, text) else none
    | none => none

/-- The state changed where that is possible, and whether it was. -/
def attempt (change? : FileTree → Option FileTree) : StateM FileTree Bool := fun tree =>
  match change? tree with
  | some changed => (true, changed)
  | none => (false, tree)

/-- A file tree as a disk. -/
def disk : Disk (StateM FileTree) where
  read? path := fun tree => (tree.read? path, tree)
  isFile path := fun tree => ((tree.read? path).isSome, tree)
  makeDirectory path := attempt fun tree => tree.makeDirectory? path
  write path text := attempt fun tree => tree.write? path text
  setting? name := fun tree => (tree.settings.find? name, tree)
  say line := fun tree => ((), { tree with printed := line :: tree.printed })

end FileTree

end Discourse.CommandLine
