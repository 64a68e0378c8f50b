import Ignition.Run.World
import Ignition.Text.Quoted

/-!
# The notification of observers

Every notice goes to all observers in the order of their priorities, whatever the others answer. An observer that fails is told of in
the log and otherwise ignored, with one exception: at the end of a run that succeeded, the first observer that fails makes the run
fail.

One observer of the library tells of every notice in the log.
-/

namespace Ignition

namespace Observer

variable {σ : Type}

/-- Observers in the order in which they are notified. -/
def inOrder (observers : List (Observer σ)) : List (Observer σ) :=
  byPriority (·.priority) observers

/-- The event that tells of an observer that failed. -/
def failureEvent (observer : String) (phase : Phase) (failure : Failure) : LogEvent :=
  { level := .warn, target := LogTarget.lifecycle, message := "lifecycle observer failed"
    fields := [("observer", .text observer), ("phase", .text phase.text), ("error", .text failure.message)] }

/-- Notifies observers one after the other. -/
def notify (notice : Notice) (act : Observer σ → Action σ (Except Failure Unit)) : List (Observer σ) → Running σ Unit
  | [] => return
  | observer :: rest => do
    match ← Running.perform (.notified notice observer.name) (act observer) with
    | .ok () => notify notice act rest
    | .error failure =>
      Running.tell (failureEvent observer.name notice.phase failure)
      notify notice act rest

/-- Tells observers that the run has begun. -/
def notifyStarting (args sources : List String) : List (Observer σ) → Running σ Unit :=
  notify .starting (·.starting args sources)

/-- Tells observers that the configuration is known; the environment is what they make of it. An observer that fails may have changed
it too. -/
def notifyEnvironmentPrepared (env : Environment) : List (Observer σ) → Running σ Environment
  | [] => return env
  | observer :: rest => do
    let (env, outcome) ← Running.perform (.notified .environmentPrepared observer.name) (observer.environmentPrepared env)
    match outcome with
    | .ok () => notifyEnvironmentPrepared env rest
    | .error failure =>
      Running.tell (failureEvent observer.name .environmentPrepared failure)
      notifyEnvironmentPrepared env rest

/-- Tells observers that the container exists and is initialized. -/
def notifyContextPrepared (container : Container σ) : List (Observer σ) → Running σ Unit :=
  notify .contextPrepared (·.contextPrepared container)

/-- Tells observers that the container has loaded what it is made of. -/
def notifyContextLoaded (container : Container σ) : List (Observer σ) → Running σ Unit :=
  notify .contextLoaded (·.contextLoaded container)

/-- Tells observers that the run is over. The answer is the error that makes a run fail that had succeeded. -/
def notifyFinished (container : Option (Container σ)) (error : Option RunError) :
    List (Observer σ) → Running σ (Option RunError)
  | [] => return none
  | observer :: rest => do
    let step := Step.notified (.finished error.isSome) observer.name
    match ← Running.perform step (observer.finished container error) with
    | .ok () => notifyFinished container error rest
    | .error failure =>
      if error.isSome then
        Running.tell (failureEvent observer.name .finished failure)
        notifyFinished container error rest
      else
        notifyPromoted container rest
        return some (RunError.because (.observer observer.name .finished) failure)
where
  /-- Tells the observers behind the one that made the run fail. -/
  notifyPromoted (container : Option (Container σ)) : List (Observer σ) → Running σ Unit :=
    notify (.finished false) (·.finished container none)

/-- An event about a run. -/
def lifecycleEvent (level : LogLevel) (name message : String) (fields : List (String × LogValue)) : LogEvent :=
  { level, target := LogTarget.lifecycle, message, fields := ("event", .text name) :: fields }

/-- Tells an event and answers that all is well. -/
def noting (event : LogEvent) : Action σ (Except Failure Unit) :=
  Action.telling (.ok ()) [event]

/-- The observer that tells of every notice in the log. -/
def logging : Observer σ where
  name := "logging"
  starting args sources := noting <|
    lifecycleEvent .info "starting" "application starting"
      [("args", .number (Int.ofNat args.length)), ("sources", .number (Int.ofNat sources.length))]
  environmentPrepared env := Action.telling (env, .ok ()) [
    lifecycleEvent .info "environment_prepared" "configuration environment prepared"
      [("layers", .number (Int.ofNat env.layers.length)), ("profiles", .text (Text.quotedList env.active))]]
  contextPrepared container state :=
    noting (lifecycleEvent .info "context_prepared" "application container prepared"
      [("active", .flag (container.isActive state))]) state
  contextLoaded container state :=
    noting (lifecycleEvent .info "context_loaded" "application container loaded"
      [("active", .flag (container.isActive state))]) state
  finished _ error := noting <|
    match error with
    | none => lifecycleEvent .info "finished" "application run finished" []
    | some error => lifecycleEvent .error "failed" "application run failed" [("error", .text error.message)]

end Observer

end Ignition
