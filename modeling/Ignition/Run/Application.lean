import Ignition.Discovery.Basic
import Ignition.Failure.Analysis
import Ignition.Run.ExitCode
import Ignition.Run.Notification

/-!
# Applications

An application is run over command-line arguments, phase by phase: observers are told that the run begins; the environment is put
together from a base environment, default properties, additional profiles, the arguments and the configuration files that are found;
a container is made for it and initialized; the container loads what it is made of and becomes active; its runners are called; and
the run is over.

Whatever fails on the way fails the run. Then the exit code for the failure is worked out, published and kept, observers are told
that the run is over, the failure is reported once and gets a number, and the container is closed. A run that succeeds leaves its
container open.
-/

namespace Ignition

/-- The names of the singletons that every container gets. -/
def SingletonName.arguments : String := "applicationArguments"

/-- The name under which a container holds its environment. -/
def SingletonName.environment : String := "environment"

/-- What a run is made of. -/
structure Application (σ : Type) where
  /-- Makes the container. -/
  factory : ContainerFactory σ
  /-- The environment that the configuration begins with. -/
  environment : Environment
  /-- Where configuration files are looked up. -/
  resources : σ → Resources
  /-- How configuration files are searched. -/
  discovery : Discovery := {}
  /-- The properties of last resort. -/
  defaultProperties : Option Entries := none
  /-- The profiles to activate besides those configured. -/
  additionalProfiles : List String := []
  /-- The names of the sources that the container loads. -/
  sources : List String := []
  /-- Those who are told of each phase, in the order in which they were given. -/
  observers : List (Observer σ) := []
  /-- Those who prepare the container, in the order in which they are called. -/
  initializers : List (Initializer σ) := []
  /-- Whether the arguments become a layer of the environment. -/
  commandLineLayer : Bool := true
  /-- Whether the log tells how the run goes. -/
  startupInfo : Bool := true
  /-- Whether the container gets a shutdown hook. -/
  shutdownHook : Bool := true
  /-- Those who look at a failure, in order. -/
  analyzers : List Analyzer := Analyzer.standard
  /-- Reports what they say. -/
  reporter : Analysis → Action σ Unit := fun analysis => .telling () [analysis.event]
  /-- Whether the last resort is told of failures. -/
  usesSuppressor : Bool := false
  /-- How many milliseconds the run has taken. -/
  elapsed : σ → Nat := fun _ => 0

/-- How far a run has come. -/
structure Bootstrap (σ : Type) where
  /-- What is kept of the run. -/
  world : World σ
  /-- The phase that the run is in. -/
  phase : Option Phase := none
  /-- The container, once it exists. -/
  container : Option (Container σ) := none

/-- Does something that only concerns what is kept. -/
def Bootstrap.within {σ α : Type} (part : Running σ α) : StateM (Bootstrap σ) α := fun boot =>
  let (answer, world) := part boot.world
  (answer, { boot with world })

/-- A part of a run that may fail. -/
abbrev Booting (σ : Type) := ExceptT RunError (StateM (Bootstrap σ))

namespace Booting

variable {σ α : Type}

/-- Does something that does not fail. -/
def within (part : Running σ α) : Booting σ α :=
  ExceptT.lift (Bootstrap.within part)

/-- Tells an event. -/
def tell (event : LogEvent) : Booting σ Unit :=
  within (Running.tell event)

/-- Enters a phase. -/
def enter (next : Phase) : Booting σ Unit := do
  match Phase.enter (← get).phase next with
  | .error order => throw (RunError.ofPhaseOrder order)
  | .ok phase =>
    modify fun boot => { boot with phase := some phase }
    within (Running.record (.entered phase))

/-- Calls a collaborator whose failure fails the run. -/
def demand (fault : RunFault) (step : Step) (action : Action σ (Except Failure α)) : Booting σ α := do
  match ← within (Running.perform step action) with
  | .ok answer => return answer
  | .error failure => throw (RunError.because fault failure)

end Booting

namespace Application

variable {σ : Type}

/-- Adds an observer. -/
def withObserver (app : Application σ) (observer : Observer σ) : Application σ :=
  { app with observers := app.observers ++ [observer] }

/-- Adds an initializer, in its place among the others. -/
def withInitializer (app : Application σ) (initializer : Initializer σ) : Application σ :=
  { app with initializers := byPriority (·.priority) (app.initializers ++ [initializer]) }

/-- The observers in the order in which they are notified. -/
def inOrder (app : Application σ) : List (Observer σ) :=
  Observer.inOrder app.observers

/-- An event about the run. -/
def event (level : LogLevel) (message : String) (fields : List (String × LogValue)) : LogEvent :=
  { level, target := LogTarget.run, message, fields }

/-! ## The environment -/

/-- An environment with default properties, which are laid over those that it has, at its end. -/
def withDefaults (env : Environment) (properties : Entries) : Environment :=
  let defaults := Layer.ofEntries LayerName.defaults properties
  match env.layer? LayerName.defaults with
  | some layer => env.addLast (layer.overlaidBy defaults)
  | none => env.addLast defaults

/-- The environment before the command line has its say: with default properties and additional profiles. -/
def ownEnvironment (app : Application σ) : Environment :=
  let env := match app.defaultProperties with
    | some properties => withDefaults app.environment properties
    | none => app.environment
  app.additionalProfiles.foldl Environment.activate env

/-- What the command line says, and the environment in which configuration files are searched. -/
def searchEnvironment (app : Application σ) (args : List String) : Except ConfigError (Arguments × Environment) :=
  match Arguments.parse args with
  | .error error => .error { fault := .argument error }
  | .ok arguments =>
    .ok (arguments, if app.commandLineLayer then arguments.applyTo app.ownEnvironment else app.ownEnvironment)

/-- Puts the environment together. -/
def prepareEnvironment (app : Application σ) (args : List String) : Booting σ (Arguments × Environment) := do
  match app.searchEnvironment args with
  | .error error => throw (RunError.because .environment error.failure)
  | .ok (arguments, env) =>
    let resources ← Booting.within (Running.look app.resources)
    let outcome := app.discovery.run resources env
    outcome.log.forM Booting.tell
    match outcome.result with
    | .error error => throw (RunError.because .environment error.failure)
    | .ok found =>
      Booting.tell <| event .debug "configuration resolved"
        [("loaded", .text (Text.quotedList found.loaded)), ("profiles", .text (Text.quotedList found.processed))]
      let env ← Booting.within (Observer.notifyEnvironmentPrepared outcome.environment app.inOrder)
      return (arguments, env)

/-! ## The container -/

/-- The event that tells which profiles are active. -/
def profilesEvent (env : Environment) : LogEvent :=
  if env.active.isEmpty then
    event .info "no active profile set, falling back to the default profiles"
      [("defaults", .text (Text.quotedList env.defaults))]
  else event .info "the following profiles are active" [("profiles", .text (Text.quotedList env.active))]

/-- Calls initializers one after the other, up to the first that fails. -/
def callInitializers (container : Container σ) : List (Initializer σ) → Booting σ Unit
  | [] => return
  | initializer :: rest => do
    Booting.demand (.initializer initializer.name) (.initialized initializer.name) (initializer.prepare container)
    callInitializers container rest

/-- Gives the container what it is made of. -/
def loadContainer (container : Container σ) (arguments : Arguments) (env : Environment) (sources : List String) :
    Booting σ Unit := do
  Booting.demand .load (.registered SingletonName.arguments)
    (container.register SingletonName.arguments (.arguments arguments))
  Booting.demand .load (.registered SingletonName.environment)
    (container.register SingletonName.environment (.environment env))
  Booting.demand .load .loaded (container.load sources)

/-- Calls runners one after the other, up to the first that fails. -/
def callRunners (arguments : Arguments) : List (Runner σ) → Booting σ Unit
  | [] => return
  | runner :: rest => do
    Booting.tell (event .debug "invoking runner" [("runner", .text runner.name)])
    Booting.demand (.runner runner.name) (.invoked runner.name) (runner.run arguments)
    callRunners arguments rest

/-! ## The run -/

/-- Begins the run. -/
def start (app : Application σ) (args : List String) : Booting σ Unit := do
  Booting.enter .starting
  if app.startupInfo then
    Booting.tell (event .info "starting application" [("sources", .text (Text.quotedList app.sources))])
  Booting.within (Observer.notifyStarting args app.sources app.inOrder)

/-- Puts the environment together in its phase. -/
def configure (app : Application σ) (args : List String) : Booting σ (Arguments × Environment) := do
  Booting.enter .environmentPrepared
  app.prepareEnvironment args

/-- Makes the container. -/
def createContainer (app : Application σ) (env : Environment) : Booting σ (Container σ) := do
  Booting.enter .contextPrepared
  let container ← Booting.demand .container .created (app.factory env)
  modify fun boot => { boot with container := some container }
  return container

/-- Prepares the container. -/
def prepareContainer (app : Application σ) (container : Container σ) (env : Environment) : Booting σ Unit := do
  callInitializers container app.initializers
  if app.startupInfo then Booting.tell (profilesEvent env)
  Booting.within (Observer.notifyContextPrepared container app.inOrder)

/-- Fills the container. -/
def fillContainer (app : Application σ) (container : Container σ) (arguments : Arguments) (env : Environment) :
    Booting σ Unit := do
  Booting.enter .contextLoaded
  loadContainer container arguments env app.sources
  Booting.within (Observer.notifyContextLoaded container app.inOrder)

/-- Makes the container active. -/
def activateContainer (app : Application σ) (container : Container σ) : Booting σ Unit := do
  Booting.enter .contextRefreshed
  Booting.demand .refresh .refreshed container.refresh
  if app.shutdownHook then Booting.demand .shutdownHook .hooked container.installHook

/-- Calls the runners of the container in the order of their priorities. -/
def serve (container : Container σ) (arguments : Arguments) : Booting σ Unit := do
  Booting.enter .runners
  let runners ← Booting.within (Running.look container.runners)
  callRunners arguments (byPriority (·.priority) runners)

/-- Goes through the phases up to the last but one. -/
def drive (app : Application σ) (args : List String) : Booting σ (Container σ) := do
  app.start args
  let (arguments, env) ← app.configure args
  let container ← app.createContainer env
  app.prepareContainer container env
  app.fillContainer container arguments env
  app.activateContainer container
  serve container arguments
  return container

/-- Milliseconds as seconds with three decimal places. -/
def seconds (milliseconds : Nat) : String :=
  Text.decimal (milliseconds / 1000) ++ "." ++ Text.paddedDecimal 3 (milliseconds % 1000)

/-- The event that tells that the application is up. -/
def startedEvent (env : Environment) (milliseconds : Nat) : LogEvent :=
  let name := (env.get? Key.applicationName).getD Default.applicationName
  event .info ("started " ++ name ++ " in " ++ seconds milliseconds ++ " seconds")
    [("application", .text name), ("profiles", .text (Text.quotedList env.active)),
      ("elapsed_ms", .number (Int.ofNat milliseconds))]

/-- The exit code for an error. Only a container that is active is asked. -/
def failureCode (container : Option (Container σ)) (error : RunError) (state : σ) : Int :=
  let mappers := match container with
    | some container => if container.isActive state then container.mappers state else []
    | none => []
  ExitCode.ofFailure mappers error.failure

/-- The event that reports a failure of which no analyzer has anything to say. -/
def unexplainedEvent (error : RunError) : LogEvent :=
  event .error "application run failed"
    [("phase", .text (match error.phase? with
        | some phase => "Some(" ++ phase.fieldText ++ ")"
        | none => "None")),
      ("error", .text error.message), ("causes", .text (Text.quotedList error.failure.messages))]

/-- Reports an error. -/
def report (app : Application σ) (error : RunError) : Running σ Unit :=
  match Analyzer.first? app.analyzers error.failure with
  | some analysis => Running.perform (.reported true) (app.reporter analysis)
  | none => do
    Running.record (.reported false)
    Running.tell (unexplainedEvent error)

/-- Publishes the exit code for a failure to a container that is active, and tells it to the last resort. -/
def announceCode (app : Application σ) (container : Option (Container σ)) (code : Int) : Running σ Unit := do
  if code ≠ 0 then
    match container with
    | some container =>
      if ← Running.look container.isActive then Running.perform (.published code) (container.publish code)
    | none => pure ()
    if app.usesSuppressor then
      modify fun world => { world with suppressor := world.suppressor.registerCode code }

/-- Gives a failure that was reported its number and tells the last resort of it. -/
def register (app : Application σ) (error : RunError) (exitCode : Int) : Running σ RunFailure := do
  let world ← get
  let failure : RunFailure := { number := world.failures, error, exitCode }
  set { world with
    failures := world.failures + 1
    suppressor := if app.usesSuppressor then world.suppressor.register failure else world.suppressor }
  return failure

/-- Closes the container of a run that failed. -/
def closeFailed (container : Container σ) : Running σ Unit := do
  match ← Running.perform .closed container.close with
  | .ok () => return
  | .error failure =>
    Running.tell (event .warn "failed to close the application container" [("error", .text failure.message)])

/-- Tells the observers that the run failed. -/
def finishFailed (app : Application σ) (error : RunError) : StateM (Bootstrap σ) Unit := do
  match ← (Booting.enter .finished).run with
  | .ok () => pure ()
  | .error order =>
    Bootstrap.within (Running.tell (event .debug "run already finished" [("error", .text order.message)]))
  match ← Bootstrap.within (Observer.notifyFinished (← get).container (some error) app.inOrder) with
  | none => pure ()
  | some failed =>
    Bootstrap.within
      (Running.tell (event .warn "finished notification failed" [("error", .text failed.message)]))

/-- Reports a failure and closes the container. -/
def settle (app : Application σ) (container : Option (Container σ)) (error : RunError) (exitCode : Int) :
    Running σ RunFailure := do
  app.report error
  let failure ← app.register error exitCode
  if let some container := container then closeFailed container
  return failure

/-- Ends a run that failed; the observers may have been told already that it is over. -/
def fail (app : Application σ) (error : RunError) (notified : Bool) : StateM (Bootstrap σ) RunFailure := do
  let boot ← get
  let code := failureCode boot.container error boot.world.state
  Bootstrap.within (app.announceCode boot.container code)
  if !notified then app.finishFailed error
  Bootstrap.within (app.settle boot.container error code)

/-- Ends a run whose runners are done. -/
def finish (app : Application σ) (container : Container σ) : Booting σ (Option RunError) := do
  Booting.enter .finished
  if app.startupInfo then
    Booting.tell (startedEvent container.environment (← Booting.within (Running.look app.elapsed)))
  Booting.within (Observer.notifyFinished (some container) none app.inOrder)

/-- Runs the application over command-line arguments. -/
def run (app : Application σ) (args : List String) : Running σ (Except RunFailure (Container σ)) := fun world =>
  let whole : StateM (Bootstrap σ) (Except RunFailure (Container σ)) := do
    match ← (app.drive args).run with
    | .error error => return .error (← app.fail error false)
    | .ok container =>
      match ← (app.finish container).run with
      | .error error => return .error (← app.fail error false)
      | .ok (some promoted) => return .error (← app.fail promoted true)
      | .ok none => return .ok container
  let (result, boot) := whole { world }
  (result, boot.world)

end Application

end Ignition
