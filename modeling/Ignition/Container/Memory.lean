import Ignition.Container.State
import Ignition.Run.Collaborator

/-!
# Containers in memory

A container whose state is one of the states of the library, with runners and other collaborators that are fixed when it is made. The
states of all containers are kept in one part of the shared state, where each container knows its own by its number.
-/

namespace Ignition

/-- The collaborators of a container, fixed when it is made. -/
structure ContainerParts (σ : Type) where
  /-- Its runners. -/
  runners : List (Runner σ) := []
  /-- Those who know exit codes for failures. -/
  mappers : List ExitCodeMapper := []
  /-- Those who say with which exit code to end. -/
  contributors : List (ExitCodeContributor σ) := []

namespace MemoryContainer

variable {σ : Type}

/-- Where the states of all containers are. -/
abbrev Store (σ : Type) := Part σ (List ContainerState)

/-- The state of the container with a number. -/
def stateOf (store : Store σ) (number : Nat) (state : σ) : ContainerState :=
  ((store.get state)[number]?).getD default

/-- Puts a changed state in the place of the old one. -/
def commit (store : Store σ) (number : Nat) (change : ContainerChange) (state : σ) : σ :=
  store.set ((store.get state).set number change.state) state

/-- Changes the state of a container, unless that is refused. -/
def attempt (store : Store σ) (number : Nat) (change : ContainerState → Except ContainerError ContainerChange) :
    Action σ (Except Failure Unit) := fun state =>
  match change (stateOf store number state) with
  | .ok change => (.ok (), commit store number change state, change.events.map .event)
  | .error error => (.error { fault := .container error }, state, [])

/-- Changes the state of a container. -/
def apply (store : Store σ) (number : Nat) (change : ContainerState → ContainerChange) : Action σ Unit := fun state =>
  let change := change (stateOf store number state)
  ((), commit store number change state, change.events.map .event)

/-- The container with a number. -/
def container (store : Store σ) (number : Nat) (parts : ContainerParts σ) (environment : Environment) : Container σ where
  environment
  register name value := attempt store number (·.register name value)
  singleton? name state := (stateOf store number state).singleton? name
  load sources := attempt store number (·.load sources)
  refresh := attempt store number (·.refresh)
  isActive state := (stateOf store number state).isActive
  installHook := attempt store number (·.installHook)
  runners _ := byPriority (·.priority) parts.runners
  mappers _ := parts.mappers
  contributors _ := parts.contributors
  publish code := apply store number (·.publish code)
  close state :=
    let ((), state, told) := apply store number (·.close) state
    (.ok (), state, told)

/-- Makes containers with the same collaborators, each with a state of its own. -/
def factory (store : Store σ) (parts : ContainerParts σ) : ContainerFactory σ := fun environment state =>
  let states := store.get state
  (.ok (container store states.length parts environment), store.set (states ++ [default]) state, [])

end MemoryContainer

end Ignition
