/-!
# The phases of a run

A run goes through its phases in order. One step at a time is the rule; only the last phase may be entered from any other, so that a
failure can end a run early. It is never left.
-/

namespace Ignition

/-- A phase of a run. -/
inductive Phase where
  /-- The run has begun. -/
  | starting
  /-- The configuration is known. -/
  | environmentPrepared
  /-- The container exists and is initialized. -/
  | contextPrepared
  /-- The container has loaded what it is made of. -/
  | contextLoaded
  /-- The container is active. -/
  | contextRefreshed
  /-- The runners are at work. -/
  | runners
  /-- The run is over. -/
  | finished
deriving DecidableEq, Repr, Inhabited

/-- A phase that may not be entered where it was to be. -/
structure PhaseOrder where
  /-- The phase that the run is in; none before it begins. -/
  current : Option Phase
  /-- The phase that was to be entered. -/
  next : Phase
deriving DecidableEq, Repr

namespace Phase

/-- All phases in order. -/
def all : List Phase :=
  [starting, environmentPrepared, contextPrepared, contextLoaded, contextRefreshed, runners, finished]

/-- The word for a phase, as messages have it. -/
def text : Phase → String
  | starting => "STARTING"
  | environmentPrepared => "ENVIRONMENT_PREPARED"
  | contextPrepared => "CONTEXT_PREPARED"
  | contextLoaded => "CONTEXT_LOADED"
  | contextRefreshed => "CONTEXT_REFRESHED"
  | runners => "RUNNERS"
  | finished => "FINISHED"

/-- The word for a phase, as fields of events have it. -/
def fieldText : Phase → String
  | starting => "Starting"
  | environmentPrepared => "EnvironmentPrepared"
  | contextPrepared => "ContextPrepared"
  | contextLoaded => "ContextLoaded"
  | contextRefreshed => "ContextRefreshed"
  | runners => "Runners"
  | finished => "Finished"

/-- The phase behind a phase. -/
def next? : Phase → Option Phase
  | starting => some environmentPrepared
  | environmentPrepared => some contextPrepared
  | contextPrepared => some contextLoaded
  | contextLoaded => some contextRefreshed
  | contextRefreshed => some runners
  | runners => some finished
  | finished => none

/-- Whether a phase may be entered from another, or at the beginning. -/
def mayEnter (current : Option Phase) (next : Phase) : Bool :=
  match current with
  | none => next = starting
  | some finished => false
  | some phase => next = finished || phase.next? = some next

/-- Enters a phase. -/
def enter (current : Option Phase) (next : Phase) : Except PhaseOrder Phase :=
  if mayEnter current next then .ok next else .error { current, next }

end Phase

end Ignition
