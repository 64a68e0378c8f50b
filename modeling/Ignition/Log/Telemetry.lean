import Ignition.Run.Collaborator

/-!
# Setting up the log

A process has one log at most, and whoever sets it up first decides about it. The log is set up by an observer, as soon as the
configuration is known and before all other observers, with the filter and the format that the environment says.
-/

namespace Ignition

/-- The log of a process. -/
structure Telemetry where
  /-- The settings that the log was set up with. -/
  installed : Option LogSettings := none
  /-- Whether something else took the place of the log. -/
  isTaken : Bool := false
deriving DecidableEq, Repr, Inhabited

namespace Telemetry

/-- What a process says that has another log already. -/
def taken : String := "a global default trace dispatcher has already been set"

/-- The failure for a filter that is none. -/
def filterFailure (filter : String) (error : FilterError) : Failure :=
  { fault := .logFilter filter
    causes := .filterSyntax error :: match error with
      | .malformed => []
      | .unknownLevel => [.plain error.message] }

/-- Sets up the log as an environment says, unless it is set up already, and tells what happened. -/
def install (env : Environment) (telemetry : Telemetry) : Except Failure (Telemetry × List LogRecord) :=
  match LogSettings.ofEnvironment env with
  | .error error => .error { fault := .config (.value error) }
  | .ok settings =>
    match telemetry.installed with
    | some earlier =>
      .ok (telemetry, if earlier = settings then [] else [.event
        { level := .debug, target := LogTarget.telemetry
          message := "telemetry already installed, keeping earlier settings"
          fields := [("filter", .text earlier.filter), ("format", .text earlier.format.text)] }])
    | none =>
      match LogFilter.parse settings.filter with
      | .error error => .error (filterFailure settings.filter error)
      | .ok _ =>
        if telemetry.isTaken then .error (Failure.because .logInstallation (Failure.ofText taken))
        else .ok ({ telemetry with installed := some settings }, [.installed settings])

/-- The observer that sets up the log. -/
def observer {σ : Type} (part : Part σ Telemetry) : Observer σ where
  name := "telemetry"
  priority := Text.leastInt32
  environmentPrepared env state :=
    match install env (part.get state) with
    | .ok (telemetry, told) => ((env, .ok ()), part.set telemetry state, told)
    | .error failure => ((env, .error failure), state, [])

end Telemetry

/-- The events that a log shows: those told behind its set-up that its filter lets through. -/
def LogRecord.visible : Option LogFilter → List LogRecord → List LogEvent
  | _, [] => []
  | _, .installed settings :: rest => visible (LogFilter.parse settings.filter).toOption rest
  | none, .event _ :: rest => visible none rest
  | some filter, .event told :: rest =>
    if filter.shows told then told :: visible (some filter) rest else visible (some filter) rest

end Ignition
