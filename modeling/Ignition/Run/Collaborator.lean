import Ignition.Container.State
import Ignition.Failure.Basic

/-!
# Who takes part in a run

An application runs with the help of others: a container and what is in it, initializers, runners and observers. When one of them is
called it answers, may change the state that all of them share, and may tell events; that is all the library assumes of them. The
shared state is of whatever type suits them.

Initializers, runners and observers have priorities. Lower ones come first, and among equals the order in which they were given stays.
-/

namespace Ignition

/-- What a collaborator does when it is called. -/
abbrev Action (σ α : Type) := σ → α × σ × List LogRecord

namespace Action

variable {σ α : Type}

/-- Answers without doing anything. -/
def answer (value : α) : Action σ α := fun state =>
  (value, state, [])

/-- Answers and tells events. -/
def telling (value : α) (events : List LogEvent) : Action σ α := fun state =>
  (value, state, events.map .event)

end Action

/-- A part of the shared state. -/
structure Part (σ τ : Type) where
  /-- The part as it is. -/
  get : σ → τ
  /-- The state with the part changed. -/
  set : τ → σ → σ

/-- Does its work once the container is active. -/
structure Runner (σ : Type) where
  /-- Its name. -/
  name : String
  /-- Its priority. -/
  priority : Int := 0
  /-- Its work, given what the command line says. -/
  run : Arguments → Action σ (Except Failure Unit)

/-- Gives the exit code for a failure; zero if it knows none. -/
abbrev ExitCodeMapper := Failure → Int

/-- Says with which exit code to end, or fails to. -/
abbrev ExitCodeContributor (σ : Type) := Action σ (Except Failure Int)

/-- Holds what an application is made of. -/
structure Container (σ : Type) where
  /-- The environment that it was made for. -/
  environment : Environment
  /-- Holds a value under a name. -/
  register : String → Singleton → Action σ (Except Failure Unit)
  /-- What it holds under a name. -/
  singleton? : String → σ → Option Singleton
  /-- Loads sources. -/
  load : List String → Action σ (Except Failure Unit)
  /-- Becomes active. -/
  refresh : Action σ (Except Failure Unit)
  /-- Whether it is active. -/
  isActive : σ → Bool
  /-- Arranges to be closed when the process is asked to end. -/
  installHook : Action σ (Except Failure Unit)
  /-- Its runners. -/
  runners : σ → List (Runner σ)
  /-- Those who know exit codes for failures. -/
  mappers : σ → List ExitCodeMapper
  /-- Those who say with which exit code to end. -/
  contributors : σ → List (ExitCodeContributor σ)
  /-- Takes note of the exit code of the process. -/
  publish : Int → Action σ Unit
  /-- Lets go of all it holds. -/
  close : Action σ (Except Failure Unit)

/-- Makes the container of a run. -/
abbrev ContainerFactory (σ : Type) := Environment → Action σ (Except Failure (Container σ))

/-- Prepares a container before it is loaded. -/
structure Initializer (σ : Type) where
  /-- Its name. -/
  name : String
  /-- Its priority. -/
  priority : Int := 0
  /-- Its work on a container. -/
  prepare : Container σ → Action σ (Except Failure Unit)

/-- Is told of each phase of a run; it may change the environment while that is being prepared. -/
structure Observer (σ : Type) where
  /-- Its name. -/
  name : String
  /-- Its priority. -/
  priority : Int := 0
  /-- The run has begun, with some arguments and for some sources. -/
  starting : (args sources : List String) → Action σ (Except Failure Unit) := fun _ _ => .answer (.ok ())
  /-- The configuration is known. -/
  environmentPrepared : Environment → Action σ (Environment × Except Failure Unit) := fun env => .answer (env, .ok ())
  /-- The container exists and is initialized. -/
  contextPrepared : Container σ → Action σ (Except Failure Unit) := fun _ => .answer (.ok ())
  /-- The container has loaded what it is made of. -/
  contextLoaded : Container σ → Action σ (Except Failure Unit) := fun _ => .answer (.ok ())
  /-- The run is over, perhaps by an error. -/
  finished : Option (Container σ) → Option RunError → Action σ (Except Failure Unit) := fun _ _ => .answer (.ok ())

/-- Sorts by priority; equals stay in order. -/
def byPriority {α : Type} (priority : α → Int) (items : List α) : List α :=
  items.mergeSort fun a b => decide (priority a ≤ priority b)

end Ignition
