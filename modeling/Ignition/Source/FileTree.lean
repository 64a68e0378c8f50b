import Ignition.Text.Basic

/-!
# File trees

A file system as a value: a tree of directories with files at its leaves, and the directory that relative paths start from. A
path is a text; slashes separate its steps, empty steps and single dots stay where they are, and two dots go to the directory
above. A step from a file leads nowhere, so a path that ends with a slash names no file.
-/

namespace Ignition

/-- A directory entry: a file with its bytes, or a directory with named entries. -/
inductive FileTree where
  /-- A file. -/
  | file (contents : ByteArray)
  /-- A directory. -/
  | directory (entries : List (String × FileTree))
deriving Inhabited

namespace FileTree

/-- The entry of a name in a directory. -/
def child? (name : String) : FileTree → Option FileTree
  | file _ => none
  | directory entries => (entries.find? (·.1 = name)).map (·.2)

/-- The names in a directory. -/
def names : FileTree → List String
  | file _ => []
  | directory entries => entries.map (·.1)

/-- A directory with one entry set. -/
def setChild (name : String) (entry : FileTree) : FileTree → FileTree
  | file contents => file contents
  | directory entries =>
    if entries.any (·.1 = name) then
      directory (entries.map fun (known, old) => if known = name then (known, entry) else (known, old))
    else directory (entries ++ [(name, entry)])

/-- The entry that named steps lead to. -/
def find? : List String → FileTree → Option FileTree
  | [], tree => some tree
  | name :: rest, tree => (tree.child? name).bind (find? rest)

/-- The tree with an entry at the end of named steps; directories on the way are made where nothing is. `none` if a file is in the
way. -/
def put? (entry : FileTree) : List String → FileTree → Option FileTree
  | [], _ => some entry
  | _, file _ => none
  | name :: rest, directory entries =>
    let tree := directory entries
    (put? entry rest ((tree.child? name).getD (directory []))).map fun new => setChild name new tree

/-- The steps that a path is made of. -/
def steps (path : String) : List String :=
  (Text.split '/' path.toList).map String.ofList

/-- Follows the steps of a path from a place in the tree, given as the names that lead there from the root, last one first. Each
step but the last has to lead to a directory. -/
def walk? (tree : FileTree) : (place : List String) → (steps : List String) → Option (List String)
  | place, [] => some place
  | place, step :: rest =>
    match tree.find? place.reverse with
    | some (directory _) =>
      if step = "" || step = "." then walk? tree place rest
      else if step = ".." then walk? tree place.tail rest
      else if rest.isEmpty || (tree.find? (step :: place).reverse).isSome then walk? tree (step :: place) rest
      else none
    | _ => none

end FileTree

/-- A file system: its tree, and the directory that relative paths start from. -/
structure FileSystem where
  /-- The tree from the root. -/
  root : FileTree := .directory []
  /-- The names that lead to the directory of relative paths. -/
  current : List String := []
deriving Inhabited

namespace FileSystem

/-- Whether a path starts at the root. -/
def isAbsolute (path : String) : Bool :=
  Text.startsWith "/" path

/-- A path as seen from a directory: an absolute path stands for itself, any other is put behind the directory. -/
def join (directory path : String) : String :=
  if isAbsolute path then path
  else if directory.isEmpty then path
  else if Text.endsWith "/" directory then directory ++ path
  else directory ++ "/" ++ path

/-- The names that lead from the root to what a path names. -/
def place? (files : FileSystem) (path : String) : Option (List String) :=
  (files.root.walk? (if isAbsolute path then [] else files.current.reverse) (FileTree.steps path)).map List.reverse

/-- What is at a path. -/
def entry? (files : FileSystem) (path : String) : Option FileTree :=
  if path.isEmpty then none else (files.place? path).bind fun place => files.root.find? place

/-- The bytes of the file at a path. -/
def fileAt? (files : FileSystem) (path : String) : Option ByteArray :=
  match files.entry? path with
  | some (.file contents) => some contents
  | _ => none

end FileSystem

end Ignition
