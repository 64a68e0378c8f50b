import Ignition.Config.Draws
import Ignition.Config.Entries
import Ignition.Config.Names
import Ignition.Config.Randomness
import Ignition.Text.UpperCase

/-!
# Layers

A layer is one source of property values with a name. Most layers hold entries; one kind holds environment variables, whose
names cannot contain dots or dashes, so a key is tried in several spellings; one kind holds nothing and answers keys that ask
for a random value, each time with another draw. A layer read from a file remembers its origin, and the profile it was read for.
-/

namespace Ignition

/-- Where a layer has its values from. -/
inductive Source where
  /-- Entries as they were given. -/
  | entries (entries : Entries)
  /-- Environment variables, found under several spellings of a key. -/
  | system (entries : Entries)
  /-- Random values, as they are drawn. -/
  | random (draws : Draws)
deriving DecidableEq, Repr, Inhabited

/-- The source with other ways in the place of those of its draws. -/
def Source.mapWays (change : List Draws.Step → Option (List Draws.Step)) (source : Source) : Source :=
  match source with
  | .random draws => .random (draws.mapWays change)
  | .entries _ | .system _ => source

/-- A named source of property values. -/
structure Layer where
  /-- The name, which identifies the layer in an environment. -/
  name : String
  /-- Where the layer was read. -/
  origin : Option String := none
  /-- The profile the layer was read for. -/
  profile : Option String := none
  /-- Where the values come from. -/
  source : Source
deriving DecidableEq, Repr, Inhabited

namespace Layer

/-- A layer of entries; a repeated key keeps its first place and its last value. -/
def ofEntries (name : String) (entries : Entries) : Layer :=
  { name, source := .entries entries.collapse }

/-- The layer of environment variables. -/
def ofVariables (system : Entries) : Layer :=
  { name := LayerName.system, source := .system system.collapse }

/-- The layer of random values. -/
def ofRandom (draws : Draws) : Layer :=
  { name := LayerName.random, source := .random draws }

/-- The layer with other ways in the place of those of its draws. -/
def mapWays (change : List Draws.Step → Option (List Draws.Step)) (layer : Layer) : Layer :=
  { layer with source := layer.source.mapWays change }

/-- The entries of a layer; the random layer has none. -/
def entries (layer : Layer) : Entries :=
  match layer.source with
  | .entries entries | .system entries => entries
  | .random _ => []

/-- A text with one character in the place of another. -/
def respell (old new : Char) (text : String) : String :=
  String.ofList (text.toList.map fun c => if c = old then new else c)

/-- A list without immediate repetitions. -/
def dropRepeats : List String → List String
  | a :: b :: rest => if a = b then dropRepeats (b :: rest) else a :: dropRepeats (b :: rest)
  | short => short
termination_by names => names.length

/-- The spellings under which an environment variable answers a key, in the order they are tried: as it is, with underscores for
dots, for dashes, for both, and then all of these in upper case. -/
def spellings (key : String) : List String :=
  let dots := respell '.' '_' key
  let plain := [key, dots, respell '-' '_' key, respell '-' '_' dots]
  dropRepeats (plain ++ plain.map Text.upperCaseString)

/-- The value that a layer has for a key, where the key is looked up. -/
def get? (layer : Layer) (key : String) : Option String :=
  match layer.source with
  | .entries entries => entries.get? key
  | .system entries => (spellings key).findSome? entries.get?
  | .random draws => RandomRequest.value? (draws.drawn [] key) key

/-- The layer with the entries of another laid over its own: keys of both take the value of the other. The result holds plain
entries, and keeps name, origin and profile. -/
def overlaidBy (layer other : Layer) : Layer :=
  { layer with source := .entries (layer.entries ++ other.entries).collapse }

end Layer

end Ignition
