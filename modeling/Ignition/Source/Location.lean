import Ignition.Source.FileTree
import Ignition.Source.Resource

/-!
# Locations in a file system

A location with the prefix `classpath:` is looked for below each of some roots in turn; one with the prefix `file:`, or with none,
names a path, which is taken from a working directory unless it is absolute. Any other word of two or more letters, digits and
plus signs before a colon is a scheme that is not understood; a single letter is not, since it may be a drive.
-/

namespace Ignition

namespace Location

/-- The prefix of locations below the roots. -/
def classpathScheme : String := "classpath:"

/-- The prefix of locations that are paths. -/
def fileScheme : String := "file:"

/-- Whether a character can be part of a scheme. -/
def isSchemeChar (c : Char) : Bool :=
  ('a' ≤ c && c ≤ 'z') || ('A' ≤ c && c ≤ 'Z') || ('0' ≤ c && c ≤ '9') || c = '+'

/-- Whether a path begins with a scheme. -/
def hasScheme (path : String) : Bool :=
  match Text.cut ':' path.toList with
  | some (scheme, _) => 1 < scheme.length && scheme.all isSchemeChar
  | none => false

/-- A location that carries a known prefix; `file:` is put in front of any other. -/
def normalize (location : String) : String :=
  if Text.startsWith classpathScheme location || Text.startsWith fileScheme location then location
  else fileScheme ++ location

end Location

/-- How locations are looked up in a file system. -/
structure FileLookup where
  /-- The roots of locations with the prefix `classpath:`, in order. -/
  roots : List String := []
  /-- The directory that relative paths are taken from. -/
  workingDirectory : String := "."
deriving DecidableEq, Repr, Inhabited

namespace FileLookup

/-- The paths that a location may mean, in the order they are tried. -/
def candidates (lookup : FileLookup) (location : String) : Except ResourceError (List String) :=
  match Text.dropStart? Location.classpathScheme location with
  | some path =>
    let relative := String.ofList (path.toList.dropWhile (· = '/'))
    .ok (lookup.roots.map fun root => FileSystem.join root relative)
  | none =>
    let path := (Text.dropStart? Location.fileScheme location).getD location
    if Location.hasScheme path then .error (.unsupported location)
    else .ok [FileSystem.join lookup.workingDirectory path]

/-- What is wrong with a file that holds no text. -/
def notText : String := "stream did not contain valid UTF-8"

/-- What there is at a path: no file, the bytes of one, or a file that cannot be read, for a reason. -/
abbrev Reader := String → Option (Except String ByteArray)

/-- The first file among some paths, read as text. -/
def firstFile (reader : Reader) (location : String) : List String → Except ResourceError (Option Resource)
  | [] => .ok none
  | path :: rest =>
    match reader path with
    | none => firstFile reader location rest
    | some (.error reason) => .error (.read location reason)
    | some (.ok bytes) =>
      match String.fromUTF8? bytes with
      | some contents => .ok (some { location, description := path, contents })
      | none => .error (.read location notText)

/-- The resources among the files that a reader finds. -/
def resourcesOf (lookup : FileLookup) (reader : Reader) : Resources := fun location => do
  firstFile reader location (← lookup.candidates location)

/-- The resources of a file system. -/
def resources (lookup : FileLookup) (files : FileSystem) : Resources :=
  lookup.resourcesOf fun path => (files.fileAt? path).map .ok

end FileLookup

end Ignition
