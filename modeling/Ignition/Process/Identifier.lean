import Ignition.Source.FileTree
import Ignition.Text.Integer

/-!
# The file that holds the process identifier

The identifier of a process, if it is known, is written to a file in decimal digits and nothing else. The directory of the file is
made if it is missing. The file appears whole or not at all, and takes the place of a file that is there; it does not take the place
of a directory.
-/

namespace Ignition

/-- Why the identifier was not written. -/
inductive IdentifierError where
  /-- It is not known. -/
  | unavailable
  /-- The directory of the file cannot be made. -/
  | directory (path reason : String)
  /-- The file cannot be written. -/
  | write (path reason : String)
deriving DecidableEq, Repr, Inhabited

/-- The error in words. -/
def IdentifierError.message : IdentifierError → String
  | unavailable => "no process identifier is available"
  | directory path reason => "failed to create the directory for '" ++ path ++ "': " ++ reason
  | write path reason => "failed to write the process identifier to '" ++ path ++ "': " ++ reason

namespace FileSystem

/-- What an operating system says of a missing file. -/
def missing : String := "No such file or directory (os error 2)"

/-- What an operating system says of a name that is taken. -/
def nameTaken : String := "File exists (os error 17)"

/-- What an operating system says of a step from a file. -/
def notDirectory : String := "Not a directory (os error 20)"

/-- What an operating system says of a step that is no name. -/
def busy : String := "Device or resource busy (os error 16)"

/-- What an operating system says of a directory in the place of a file. -/
def isDirectory : String := "Is a directory (os error 21)"

/-- The tree with a directory at the end of named steps from a place, which is given last name first; directories on the way are made
where nothing is, and `made` says whether one was. A file in the way is a name that is taken if it is met while directories are
made, or last of all. -/
def makeDirectory (tree : FileTree) (made : Bool) : (place : List String) → (steps : List String) → Except String FileTree
  | _, [] => .ok tree
  | place, step :: rest =>
    if step = "" || step = "." then makeDirectory tree made place rest
    else if step = ".." then makeDirectory tree made place.tail rest
    else
      let there := step :: place
      match tree.find? there.reverse with
      | some (.directory _) => makeDirectory tree made there rest
      | some (.file _) => .error (if made || rest.isEmpty then nameTaken else notDirectory)
      | none =>
        match FileTree.put? (.directory []) there.reverse tree with
        | some tree => makeDirectory tree true there rest
        | none => .error notDirectory

/-- The file system with a directory at a path. -/
def withDirectory (files : FileSystem) (path : String) : Except String FileSystem := do
  let place := if isAbsolute path then [] else files.current.reverse
  return { files with root := ← makeDirectory files.root false place (FileTree.steps path) }

/-- The last step of a path, whatever slashes stand behind it. -/
def lastStep? (path : String) : Option String :=
  ((FileTree.steps path).filter (· ≠ "")).getLast?

/-- The file system with a file at a path, whose directory has to be there. The last step has to be the name of the file. -/
def withFile (files : FileSystem) (path : String) (contents : ByteArray) : Except String FileSystem :=
  match lastStep? path with
  | none => .error (if path.isEmpty then missing else busy)
  | some last =>
    if last = "." || last = ".." then
      .error (match files.entry? path, files.entry? (directoryPath path) with
        | some _, _ => busy
        | none, some _ => notDirectory
        | none, none => missing)
    else if Text.endsWith "/" path then .error notDirectory
    else
      match files.place? path with
      | none => .error missing
      | some place =>
        match files.root.find? place with
        | some (.directory _) => .error isDirectory
        | _ =>
          match FileTree.put? (.file contents) place files.root with
          | some root => .ok { files with root }
          | none => .error notDirectory
where
  /-- A path without its last step and the slashes around it. -/
  directoryPath (path : String) : String :=
    let trimmed := path.toList.reverse.dropWhile (· = '/')
    String.ofList (((trimmed.dropWhile (· ≠ '/')).dropWhile (· = '/')).reverse)

end FileSystem

namespace ProcessIdentifier

/-- A path that is given last character first, without the slashes and the single dots behind its last other step. -/
def trimmed : List Char → List Char
  | '/' :: rest => trimmed rest
  | '.' :: '/' :: rest => trimmed rest
  | path => path

/-- The path of the directory of a file. -/
def directoryOf (path : String) : String :=
  match Text.cut '/' (trimmed path.toList.reverse) with
  | some (_, before) =>
    let directory := trimmed before
    if directory.isEmpty then "/" else String.ofList directory.reverse
  | none => "."

/-- Writes the identifier to a path. What was made of its directory stays, also when the file cannot be written. -/
def write (identifier : Option Nat) (path : String) (files : FileSystem) : Except IdentifierError Unit × FileSystem :=
  match identifier with
  | none => (.error .unavailable, files)
  | some number =>
    match files.withDirectory (directoryOf path) with
    | .error reason => (.error (.directory path reason), files)
    | .ok files =>
      match files.withFile path (Text.decimal number).toUTF8 with
      | .error reason => (.error (.write path reason), files)
      | .ok files => (.ok (), files)

end ProcessIdentifier

end Ignition
