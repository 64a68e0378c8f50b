import Ignition.Config.Names
import Ignition.Format.Formats

/-!
# Visits

A pass of the search for configuration files is a list of visits to locations, for one profile or for none. What a pass visits
depends on the places to search, on the base names, on the extensions, and on the profiles whose passes are over; it does not depend
on what is found.

A place that ends with a slash is a directory. In it, each base name is visited with each extension; in the pass for a profile also
the file of that profile, whose name has the profile behind a dash, and the files of the profiles before it, which may hold something
for this profile too. The file of the profile itself is read twice, first for what is for no profile in it, and last for what is for
this one; it is looked up only once. Any other place is a file.
-/

namespace Ignition

/-- A visit to a location. -/
inductive Visit where
  /-- A file is looked up, and what it holds for `wanted` is read. -/
  | file (location extension : String) (wanted : Option String)
  /-- A file that was just looked up is read again, now for another profile. -/
  | again (location extension : String) (wanted : Option String)
  /-- A place that is no directory and has no known extension is passed by. -/
  | passBy (location : String)
deriving DecidableEq, Repr, Inhabited

/-- What a pass depends on besides profiles. -/
structure SearchPlan where
  /-- The formats of files. -/
  formats : Formats
  /-- The places to search, lowest precedence first. -/
  locations : List String
  /-- The base names of files. -/
  names : List String

namespace SearchPlan

/-- The extension of a location, which is what stands behind its last dot, if that is one word of a path. -/
def extensionOf? (location : String) : Option String :=
  match Text.cutLast '.' location.toList with
  | some (_, extension) => if extension.contains '/' then none else some (String.ofList extension)
  | none => none

/-- The visits for a file that is a place by itself. -/
def fileVisits (plan : SearchPlan) (location : String) (profile : Option String) : List Visit :=
  match extensionOf? location with
  | some extension =>
    if (plan.formats.format? extension).isSome then [.file location extension profile] else [.passBy location]
  | none => [.passBy location]

/-- The visits for one base name with one extension in a directory. -/
def nameVisits (earlier : List String) (profile : Option String) (directory name extension : String) : List Visit :=
  let file (name : String) := directory ++ name ++ "." ++ extension
  match profile with
  | none => [.file (file name) extension none]
  | some this =>
    let own := file (name ++ "-" ++ this)
    [.file (file name) extension profile, .file own extension none] ++
      (earlier.map fun other => .file (file (name ++ "-" ++ other)) extension profile) ++
      [.again own extension profile]

/-- The visits for a directory. -/
def directoryVisits (plan : SearchPlan) (earlier : List String) (profile : Option String) (directory : String) :
    List Visit :=
  plan.names.flatMap fun name => plan.formats.extensions.flatMap (nameVisits earlier profile directory name)

/-- The visits of the pass for a profile, or for none, behind the passes for some earlier ones. -/
def visits (plan : SearchPlan) (earlier : List String) (profile : Option String) : List Visit :=
  plan.locations.flatMap fun location =>
    if Text.endsWith "/" location then plan.directoryVisits earlier profile location
    else plan.fileVisits location profile

end SearchPlan

end Ignition
