import Ignition.Failure.Suppressor
import Ignition.Run.Collaborator

/-!
# What a run does

A run is a sequence of calls to collaborators. What they did to the shared state and what they told is kept, and so is the sequence of
calls itself, step by step: only the run writes it, so it tells what the run did whatever the collaborators do. Failures that are
reported get numbers in the order of their reports, over all runs.
-/

namespace Ignition

/-- What an observer is told. -/
inductive Notice where
  /-- The run has begun. -/
  | starting
  /-- The configuration is known. -/
  | environmentPrepared
  /-- The container exists and is initialized. -/
  | contextPrepared
  /-- The container has loaded what it is made of. -/
  | contextLoaded
  /-- The run is over, perhaps by an error. -/
  | finished (failed : Bool)
deriving DecidableEq, Repr, Inhabited

/-- The phase in which a notice is given. -/
def Notice.phase : Notice → Phase
  | starting => .starting
  | environmentPrepared => .environmentPrepared
  | contextPrepared => .contextPrepared
  | contextLoaded => .contextLoaded
  | finished _ => .finished

/-- A step of a run. -/
inductive Step where
  /-- A phase was entered. -/
  | entered (phase : Phase)
  /-- An observer was told something. -/
  | notified (notice : Notice) (observer : String)
  /-- A container was asked for. -/
  | created
  /-- An initializer was called. -/
  | initialized (initializer : String)
  /-- A singleton was given to the container. -/
  | registered (name : String)
  /-- The container was told its sources. -/
  | loaded
  /-- The container was told to become active. -/
  | refreshed
  /-- The container was told to put a shutdown hook in place. -/
  | hooked
  /-- A runner was called. -/
  | invoked (runner : String)
  /-- A contributor was asked for an exit code. -/
  | consulted
  /-- An exit code was published to the container. -/
  | published (code : Int)
  /-- A failure was reported, perhaps with an analysis. -/
  | reported (analysed : Bool)
  /-- The container was told to close. -/
  | closed
deriving DecidableEq, Repr, Inhabited

/-- The shared state with all that was kept. -/
structure World (σ : Type) where
  /-- The state that the collaborators share. -/
  state : σ
  /-- What was told. -/
  log : List LogRecord := []
  /-- What was done. -/
  steps : List Step := []
  /-- How many failures were reported. -/
  failures : Nat := 0
  /-- What the last resort knows. -/
  suppressor : Suppressor := {}

/-- A part of a run. -/
abbrev Running (σ : Type) := StateM (World σ)

namespace Running

variable {σ α : Type}

/-- Tells an event. -/
def tell (event : LogEvent) : Running σ Unit :=
  modify fun world => { world with log := world.log ++ [.event event] }

/-- Keeps a step. -/
def record (step : Step) : Running σ Unit :=
  modify fun world => { world with steps := world.steps ++ [step] }

/-- Calls a collaborator. -/
def call (action : Action σ α) : Running σ α := fun world =>
  let (answer, state, told) := action world.state
  (answer, { world with state, log := world.log ++ told })

/-- Calls a collaborator and keeps the step. -/
def perform (step : Step) (action : Action σ α) : Running σ α := do
  record step
  call action

/-- What something is in the shared state. -/
def look (view : σ → α) : Running σ α :=
  return view (← get).state

end Running

end Ignition
