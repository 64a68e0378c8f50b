import Ignition.Config.Layer

/-!
# Environments

An environment is a stack of layers, highest precedence first, with the profiles that are active and those that apply if none
is. Layers are known by their names: adding a layer takes an older one of that name away. A key has the value of the first
layer that answers it.
-/

namespace Ignition

/-- A stack of layers with its profiles. -/
structure Environment where
  /-- The layers, highest precedence first. -/
  layers : List Layer := []
  /-- The active profiles, in order. -/
  active : List String := []
  /-- The profiles that apply if none is active. -/
  defaults : List String := [Default.profile]
  /-- How deeply expansions of placeholders may be nested. -/
  nesting : Nat := Default.nesting
deriving DecidableEq, Repr, Inhabited

/-- A list with a name behind all others, unless it holds the name already. -/
def withName (names : List String) (name : String) : List String :=
  if names.contains name then names else names ++ [name]

/-- A list with a name ahead of all others, unless it holds the name already. -/
def withNameFirst (names : List String) (name : String) : List String :=
  if names.contains name then names else name :: names

namespace Environment

/-- The environment of a process: its variables, and random values behind them. -/
def standard (system : Entries) (draws : Draws) : Environment :=
  { layers := [Layer.ofVariables system, Layer.ofRandom draws] }

/-- The environment with other ways in the place of those of its draws. -/
def mapWays (change : List Draws.Step → Option (List Draws.Step)) (env : Environment) : Environment :=
  { env with layers := env.layers.map (·.mapWays change) }

/-- The environment with its draws on from a step. -/
def toward (env : Environment) (step : Draws.Step) : Environment :=
  env.mapWays (Draws.behind? step)

/-- The names of the layers in order. -/
def layerNames (env : Environment) : List String :=
  env.layers.map (·.name)

/-- The layer with a name. -/
def layer? (env : Environment) (name : String) : Option Layer :=
  env.layers.find? (·.name = name)

/-- Whether there is a layer with a name. -/
def hasLayer (env : Environment) (name : String) : Bool :=
  env.layers.any (·.name = name)

/-- The environment without the first layer of a name. -/
def remove (env : Environment) (name : String) : Environment :=
  { env with layers := env.layers.eraseP (·.name = name) }

/-- Adds a layer with the highest precedence. -/
def addFirst (env : Environment) (layer : Layer) : Environment :=
  { env with layers := layer :: (env.remove layer.name).layers }

/-- Adds a layer with the lowest precedence. -/
def addLast (env : Environment) (layer : Layer) : Environment :=
  { env with layers := (env.remove layer.name).layers ++ [layer] }

/-- Puts new layers in the place of the first layer of a name. -/
def spliceAt (name : String) (new : Layer → List Layer) : List Layer → List Layer
  | [] => []
  | layer :: rest => if layer.name = name then new layer ++ rest else layer :: spliceAt name new rest

/-- Adds a layer right ahead of the one named; `none` if there is no such layer, or it is the layer itself. -/
def addBefore? (env : Environment) (name : String) (layer : Layer) : Option Environment :=
  if name = layer.name || !env.hasLayer name then none
  else some { env with layers := spliceAt name (fun old => [layer, old]) (env.remove layer.name).layers }

/-- Adds a layer right behind the one named; `none` if there is no such layer, or it is the layer itself. -/
def addAfter? (env : Environment) (name : String) (layer : Layer) : Option Environment :=
  if name = layer.name || !env.hasLayer name then none
  else some { env with layers := spliceAt name (fun old => [old, layer]) (env.remove layer.name).layers }

/-- Puts a layer in the place of the one named, and takes away an older layer of its own name; `none` if there is no layer of
the name given. -/
def replace? (env : Environment) (name : String) (layer : Layer) : Option Environment :=
  if !env.hasLayer name then none
  else
    let others := if layer.name = name then env.layers else (env.remove layer.name).layers
    some { env with layers := spliceAt name (fun _ => [layer]) others }

/-- The value of a key: that of the first layer with one. -/
def get? (env : Environment) (key : String) : Option String :=
  env.layers.findSome? (·.get? key)

/-- Activates a profile behind those active, unless it is active. -/
def activate (env : Environment) (profile : String) : Environment :=
  { env with active := withName env.active profile }

/-- Activates a profile ahead of those active, unless it is active. -/
def activateFirst (env : Environment) (profile : String) : Environment :=
  { env with active := withNameFirst env.active profile }

/-- Makes exactly the profiles given active, each once. -/
def setActive (env : Environment) (profiles : List String) : Environment :=
  { env with active := profiles.foldl withName [] }

/-- Makes the profiles given those that apply if none is active, each once. -/
def setDefaults (env : Environment) (profiles : List String) : Environment :=
  { env with defaults := profiles.foldl withName [] }

end Environment

end Ignition
