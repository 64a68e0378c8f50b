import Ignition.Discovery.Progress
import Ignition.Discovery.Visit
import Ignition.Source.Location
import Ignition.Text.Quoted

/-!
# The search for configuration files

A search makes one pass for no profile and then one for each profile that is active, included or activated by a file, until none
waits any more. Each layer that is read outranks those read before it; they all go ahead of the layer of last resort, which moves to
the end. The environment says where to search besides the places configured, and under which base names.

Nothing is at fault when a location has no file or is of a kind that is not understood. A file that cannot be read, one that makes no
layer, and a malformed list of profiles end the search; then the environment has its layers as before, but keeps the profiles that
became active. The number of passes is limited, because files can ask for ever more profiles.
-/

namespace Ignition

/-- How to search. -/
structure Discovery where
  /-- The formats of files. -/
  formats : Formats := Formats.standard
  /-- The places to search, lowest precedence first. -/
  locations : List String := Default.searchLocations
  /-- The base names of files. -/
  names : List String := Default.searchNames
  /-- How many passes there may be. -/
  passLimit : Nat := Default.passLimit

/-- What a search that came to its end found. -/
structure Discovered where
  /-- The names of the layers read, in order. -/
  loaded : List String
  /-- The names of the profiles that had a pass, in order. -/
  processed : List String
deriving DecidableEq, Repr, Inhabited

/-- How a search ended. -/
structure DiscoveryOutcome where
  /-- What was found, or why the search failed. -/
  result : Except ConfigError Discovered
  /-- The environment behind the search. -/
  environment : Environment
  /-- The passes begun and the layers read, in order. -/
  history : List Milestone := []
  /-- The locations looked up, in order. -/
  probed : List String := []
  /-- What happened. -/
  log : List LogEvent := []

namespace Discovery

/-- A part of a search: it moves on, and it may fail where it got to. -/
abbrev Searching := ExceptT ConfigError (StateM Progress)

/-- Fails at the progress made so far. -/
def failWith {α : Type} (error : ConfigError) : Searching α :=
  throw error

/-- Takes note of an event. -/
def note (level : LogLevel) (message : String) (fields : List (String × LogValue)) : Searching Unit :=
  modify (·.note level message fields)

/-- The name of the layer from a location, perhaps for a profile. -/
def layerName (location : String) : Option String → String
  | none => LayerName.fileLayer ++ ": [" ++ location ++ "]"
  | some profile => LayerName.fileLayer ++ ": [" ++ location ++ "] (profile=" ++ profile ++ ")"

/-- Reads what a resource from a location holds for a profile or for none. -/
def readLayer (plan : SearchPlan) (resource : Resource) (location extension : String) (wanted : Option String) :
    Searching Unit := do
  let some format := plan.formats.format? extension | return
  match format.read (layerName location wanted) resource wanted with
  | .error cause => failWith (ConfigError.load location cause)
  | .ok none =>
    note .trace "resource has no applicable entries"
      [("location", .text location), ("profile", .text (Text.quotedOption wanted))]
  | .ok (some layer) =>
    note .debug "loaded configuration file"
      [("location", .text location), ("resource", .text resource.description),
        ("profile", .text (Text.quotedOption wanted))]
    match (← get).accept { layer with profile := wanted } with
    | .ok progress => set progress
    | .error fault => failWith { fault }

/-- Looks up a location in the pass for a profile, or for none. -/
def lookUp (resources : Resources) (profile : Option String) (location : String) : Searching (Option Resource) := do
  modify fun progress => { progress with probed := progress.probed ++ [location] }
  match resources location with
  | .ok (some resource) => return some resource
  | .ok none =>
    note .trace "no resource found" [("location", .text location), ("profile", .text (Text.quotedOption profile))]
    return none
  | .error (.unsupported unknown) =>
    note .trace "skipping unsupported location"
      [("location", .text location), ("error", .text (ResourceError.unsupported unknown).message)]
    return none
  | .error cause => failWith (ConfigError.read location cause)

/-- Makes one visit in the pass for a profile, or for none. -/
def visit (plan : SearchPlan) (resources : Resources) (profile : Option String) : Visit → Searching Unit
  | .file location extension wanted => do
    match ← lookUp resources profile location with
    | some resource => readLayer plan resource location extension wanted
    | none => return
  | .again location extension wanted =>
    match resources location with
    | .ok (some resource) => readLayer plan resource location extension wanted
    | _ => return
  | .passBy location => note .trace "skipping location without a supported extension" [("location", .text location)]

/-- Makes the pass for a profile, or for none. -/
def pass (plan : SearchPlan) (resources : Resources) (profile : Option String) : Searching Unit := do
  modify (·.reach (.pass profile))
  (plan.visits (← get).processed.names profile).forM (visit plan resources profile)

/-- Makes the passes that wait until none does; a profile that has had its pass gets no other. -/
def passes (plan : SearchPlan) (resources : Resources) (limit : Nat) : (left : Nat) → Searching Unit
  | 0 => do
    if (← get).waiting.isEmpty then return
    failWith { fault := .tooManyPasses limit }
  | left + 1 => do
    match (← get).waiting with
    | [] => return
    | none :: rest =>
      modify fun progress => { progress with waiting := rest }
      pass plan resources none
      passes plan resources limit left
    | some profile :: rest =>
      modify fun progress => { progress with waiting := rest }
      if !(← get).processed.contains profile.name then
        note .debug "processing profile" [("profile", .text profile.name), ("default", .flag profile.standsIn)]
        pass plan resources (some profile.name)
        modify fun progress => { progress with processed := progress.processed.insert profile }
      passes plan resources limit left

/-- The entries of the list that a key has in an environment, expanded. -/
def configuredList (env : Environment) (key : String) : Except ConfigFault (List String) :=
  match env.get? key with
  | none => .ok []
  | some text =>
    match (env.toward (.list key)).expand text with
    | .ok text => .ok (Text.listEntries text)
    | .error error => .error (.placeholder error)

/-- The places to search: those configured, and behind them those that the environment names. -/
def searchLocations (discovery : Discovery) (env : Environment) : Except ConfigFault (List String) := do
  return ((← configuredList env Key.searchLocations).map Location.normalize).foldl withName discovery.locations

/-- The base names of files: those that the environment names, if there are any. -/
def searchNames (discovery : Discovery) (env : Environment) : Except ConfigFault (List String) := do
  let names ← configuredList env Key.searchNames
  return if names.isEmpty then discovery.names else names

/-- What a search in an environment goes by. -/
def plan (discovery : Discovery) (env : Environment) : Except ConfigFault SearchPlan := do
  let locations ← discovery.searchLocations env
  let names ← discovery.searchNames env
  return { formats := discovery.formats, locations, names }

/-- The environment with a layer right ahead of the layer of last resort if it has one, and else at its end. -/
def place (hasDefaults : Bool) (env : Environment) (layer : Layer) : Environment :=
  if hasDefaults then (env.addBefore? LayerName.defaults layer).getD env else env.addLast layer

/-- The environment with layers that were read, the last one of which has the highest precedence. -/
def withLoaded (env : Environment) (loaded : List Layer) : Environment :=
  loaded.reverse.foldl (place (env.hasLayer LayerName.defaults)) env

/-- The environment with the layer of last resort at its end. -/
def withDefaultsLast (env : Environment) : Environment :=
  match env.layer? LayerName.defaults with
  | some defaults => env.addLast defaults
  | none => env

/-- Searches for configuration files. -/
def run (discovery : Discovery) (resources : Resources) (env : Environment) : DiscoveryOutcome :=
  match discovery.plan env with
  | .error fault => { result := .error { fault }, environment := env }
  | .ok plan =>
    match Progress.start env with
    | .error fault => { result := .error { fault }, environment := env }
    | .ok progress =>
      match (passes plan resources discovery.passLimit discovery.passLimit).run.run progress with
      | (.error error, progress) =>
        { result := .error error
          environment := progress.environment
          history := progress.history
          probed := progress.probed
          log := progress.log }
      | (.ok (), progress) =>
        { result := .ok { loaded := progress.loaded.map (·.name), processed := progress.processed.names }
          environment := withDefaultsLast (withLoaded progress.environment progress.loaded)
          history := progress.history
          probed := progress.probed
          log := progress.log }

end Discovery

end Ignition
