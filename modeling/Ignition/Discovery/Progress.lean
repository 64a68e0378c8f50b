import Ignition.Config.Placeholder
import Ignition.Config.Profile
import Ignition.Failure.Basic

/-!
# The progress of a search

While configuration files are searched, passes wait on a stack: one for no profile, and one for each profile that was asked for and
has not had its pass. A profile waits once at most, and not at all once its pass is over. Profiles are asked for in two ways. They may
be *activated*, which counts only once: the first request that names any profile wins, later ones are noted and ignored, and with it
the profiles that only stand in for missing ones stop waiting. And they may be *included*, which always counts. Either way they become
active in the environment, each ahead of those active before.
-/

namespace Ignition

/-- A layer that was read, with the lists of profiles that were bound from it. -/
structure AskingLayer where
  /-- The layer. -/
  layer : Layer
  /-- The profiles that it asks to activate. -/
  activated : List String
  /-- The profiles that it includes. -/
  included : List String
deriving DecidableEq, Repr, Inhabited

/-- A milestone of a search. -/
inductive Milestone where
  /-- The pass for a profile, or for none, begins. -/
  | pass (profile : Option String)
  /-- A layer was read, and the profiles that it asks for were taken note of. -/
  | layer (asking : AskingLayer)
deriving DecidableEq, Repr, Inhabited

namespace Milestone

/-- The passes that begin in a history, in order. -/
def passes (history : List Milestone) : List (Option String) :=
  history.filterMap fun
    | .pass profile => some profile
    | .layer _ => none

/-- The layers that are read in a history with the profiles that they ask for, in order. -/
def asking (history : List Milestone) : List AskingLayer :=
  history.filterMap fun
    | .layer asking => some asking
    | .pass _ => none

/-- The layers that are read in a history, in order. -/
def layers (history : List Milestone) : List Layer :=
  (asking history).map (·.layer)

end Milestone

/-- How far a search has come. -/
structure Progress where
  /-- The environment with the profiles active so far. -/
  environment : Environment
  /-- The passes that wait, the next one first. -/
  waiting : List (Option Profile) := []
  /-- The profiles whose passes are over. -/
  processed : ProfileSet := {}
  /-- Whether a request to activate profiles was granted. -/
  activated : Bool := false
  /-- The passes begun and the layers read so far, in order. -/
  history : List Milestone := []
  /-- The locations looked up so far, in order. -/
  probed : List String := []
  /-- What happened so far. -/
  log : List LogEvent := []
deriving Repr, Inhabited

namespace Progress

/-- The progress with one more event. -/
def note (progress : Progress) (level : LogLevel) (message : String) (fields : List (String × LogValue)) : Progress :=
  { progress with log := progress.log ++ [{ level, target := LogTarget.discovery, message, fields }] }

/-- The progress with one more milestone. -/
def reach (progress : Progress) (milestone : Milestone) : Progress :=
  { progress with history := progress.history ++ [milestone] }

/-- The layers read so far, in order. -/
def loaded (progress : Progress) : List Layer :=
  Milestone.layers progress.history

/-- Whether a profile waits for its pass or has had it. -/
def knows (progress : Progress) (name : String) : Bool :=
  progress.processed.contains name || progress.waiting.any fun pass => pass.any (·.name = name)

/-- Lets the passes of those profiles wait that are not known yet, ahead of all others and in the order given. -/
def enqueue (progress : Progress) (profiles : List Profile) : Progress :=
  { progress with waiting := (profiles.filter (!progress.knows ·.name)).map some ++ progress.waiting }

/-- Makes profiles active, each ahead of those active before, and lets their passes wait. -/
def includeProfiles (progress : Progress) (profiles : ProfileSet) : Progress :=
  ({ progress with
    environment := profiles.profiles.foldl (fun env profile => env.activateFirst profile.name) progress.environment } :
      Progress).enqueue profiles.profiles

/-- Whether a pass is for a profile that only stands in. -/
def standsIn (pass : Option Profile) : Bool :=
  pass.any (·.standsIn)

/-- Grants a request to activate profiles, unless it is empty or one was granted before. -/
def request (progress : Progress) (profiles : ProfileSet) : Progress :=
  if profiles.profiles.isEmpty then progress
  else if progress.activated then
    progress.note .debug "profiles already activated, ignoring later activation" [("profiles", .text profiles.text)]
  else
    let granted := { progress with activated := true }.includeProfiles profiles
    { granted with waiting := granted.waiting.filter (!standsIn ·) }

/-- The environment in which the lists of a layer are expanded that is read behind a number of others: the layer is ahead. -/
def scopeOf (env : Environment) (layer : Layer) (earlier : Nat) : Environment :=
  (env.addFirst layer).toward (.layer earlier)

/-- The profiles in the list that a key has, if any, expanded in an environment. -/
def boundProfiles (scope : Environment) (key : String) (value : Option String) : Except ConfigFault ProfileSet :=
  match value with
  | none => .ok {}
  | some text =>
    match (scope.toward (.list key)).expand text with
    | .error error => .error (.placeholder error)
    | .ok text => (ProfileSet.parse key text).mapError .profile

/-- The passes that an environment asks for which includes some profiles and declares others: those come first, and then the other
profiles that are active. -/
def asked (env : Environment) (included declared : ProfileSet) : Progress :=
  let initial := included.extend declared.profiles
  let env := declared.profiles.foldl (fun env profile => env.activate profile.name) env
  let requested := ({ environment := env } : Progress).request initial
  let others := requested.environment.active.filter (!initial.contains ·)
  requested.enqueue (others.map fun name => { name })

/-- The passes at the beginning: those that the environment asks for, or those that stand in if it asks for none, and the pass for no
profile before all of them. -/
def seed (env : Environment) (included declared : ProfileSet) : Progress :=
  let asked := asked env included declared
  let seeded :=
    if asked.waiting.isEmpty then
      asked.enqueue (asked.environment.defaults.map fun name => { name, standsIn := true })
    else asked
  { seeded with waiting := none :: seeded.waiting }

/-- The progress at the beginning of a search in an environment. -/
def start (env : Environment) : Except ConfigFault Progress := do
  let included ← boundProfiles env Key.includedProfiles (env.get? Key.includedProfiles)
  let declared ← boundProfiles env Key.activeProfiles (env.get? Key.activeProfiles)
  return seed env included declared

/-- Takes a layer that activates some profiles and includes others. -/
def take (progress : Progress) (active included : ProfileSet) (layer : Layer) : Progress :=
  ((progress.request active).includeProfiles included).reach
    (.layer { layer, activated := active.names, included := included.names })

/-- Takes note of a layer that was read and of the profiles that it asks for; what it says is expanded with the layer itself ahead of
the environment. -/
def accept (progress : Progress) (layer : Layer) : Except ConfigFault Progress := do
  let scope := scopeOf progress.environment layer progress.loaded.length
  let active ← boundProfiles scope Key.activeProfiles (layer.get? Key.activeProfiles)
  let included ← boundProfiles scope Key.includedProfiles (layer.get? Key.includedProfiles)
  return progress.take active included layer

end Progress

end Ignition
