import Ignition.Config.Environment
import Ignition.Failure.Basic

/-!
# Formats of configuration files

A format is known by the extensions of its files and reads a resource as a layer. A resource may hold no layer: because it has no
entries, or because none of them is for the profile asked for. Several formats are held in order, and a file belongs to the first
format with its extension; the case of ASCII letters in an extension does not matter.
-/

namespace Ignition

/-- A format of configuration files. -/
structure Format where
  /-- The extensions of its files, without the dot. -/
  extensions : List String
  /-- The layer of a name that a resource holds, perhaps for a profile. -/
  read : (layer : String) → Resource → (profile : Option String) → Except Failure (Option Layer)

namespace Format

/-- The layer of some entries, which come from a resource; no entries make no layer. -/
def layerOf? (layer : String) (resource : Resource) (entries : Entries) : Option Layer :=
  if entries.isEmpty then none
  else some { Layer.ofEntries layer entries with origin := some resource.location }

/-- Properties files, which hold nothing that is for a profile. -/
def properties : Format where
  extensions := ["properties"]
  read layer resource profile :=
    if profile.isSome then .ok none
    else match Properties.parse resource.contents with
      | .ok entries => .ok (layerOf? layer resource entries)
      | .error error => .error { fault := .properties error }

/-- Files in YAML, whose documents may be for profiles. -/
def yaml : Format where
  extensions := ["yml", "yaml"]
  read layer resource profile :=
    match Yaml.parse resource.contents with
    | .ok documents => .ok (layerOf? layer resource (Yaml.selected profile documents))
    | .error error => .error { fault := .yaml error }

/-- Files in TOML, which hold nothing that is for a profile. -/
def toml : Format where
  extensions := ["toml"]
  read layer resource profile :=
    if profile.isSome then .ok none
    else match Toml.parse resource.contents with
      | .ok entries => .ok (layerOf? layer resource entries)
      | .error error => .error { fault := .toml error }

/-- Whether a format knows an extension. -/
def hasExtension (format : Format) (extension : String) : Bool :=
  format.extensions.any (Text.sameWord · extension)

end Format

/-- Formats in order. -/
structure Formats where
  /-- The formats. -/
  formats : List Format

namespace Formats

/-- The formats that are known unless others are given. -/
def standard : Formats :=
  ⟨[Format.properties, Format.yaml, Format.toml]⟩

/-- All extensions in order, each once. -/
def extensions (formats : Formats) : List String :=
  (formats.formats.flatMap (·.extensions)).foldl withName []

/-- The format of the files with an extension. -/
def format? (formats : Formats) (extension : String) : Option Format :=
  formats.formats.find? (·.hasExtension extension)

end Formats

end Ignition
