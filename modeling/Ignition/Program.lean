import Ignition.Container.Memory
import Ignition.Log.Telemetry
import Ignition.Run.Application

/-!
# The program

The program runs an application that has nothing in its container. It sets up its log as its configuration says and tells in it of the
phases of its run. Its exit status says how the run went: zero if all went well, the exit code if there is one, and one otherwise.
-/

namespace Ignition.Program

/-- The state of the program. -/
structure Memory where
  /-- The states of the containers. -/
  containers : List ContainerState := []
  /-- The log. -/
  telemetry : Telemetry := {}

/-- Where the states of the containers are. -/
def containers : Part Memory (List ContainerState) where
  get := Memory.containers
  set containers memory := { memory with containers }

/-- Where the log is. -/
def telemetry : Part Memory Telemetry where
  get := Memory.telemetry
  set telemetry memory := { memory with telemetry }

/-- What the program is started with. -/
structure Surroundings where
  /-- The environment variables. -/
  system : Entries
  /-- The numbers that are drawn for random values. -/
  draws : Draws := 0
  /-- Where configuration files are looked up. -/
  resources : Resources
  /-- The formats of configuration files. -/
  formats : Formats := Formats.standard
  /-- How many milliseconds have passed since the program was started. -/
  elapsed : Nat := 0

/-- The application that the program runs. -/
def application (surroundings : Surroundings) : Application Memory where
  factory := MemoryContainer.factory containers {}
  environment := Environment.standard surroundings.system surroundings.draws
  resources _ := surroundings.resources
  discovery := { formats := surroundings.formats }
  observers := [Telemetry.observer telemetry, Observer.logging]
  usesSuppressor := true
  elapsed _ := surroundings.elapsed

/-- The locations that the search for configuration files looks up, in order. -/
def probed (surroundings : Surroundings) (args : List String) : List String :=
  let app := application surroundings
  match app.searchEnvironment args with
  | .error _ => []
  | .ok (_, env) => (app.discovery.run surroundings.resources env).probed

/-- The exit code of a run: what the container says, or else what the last resort knows. -/
def exitCode : Except RunFailure (Container Memory) → Running Memory Int
  | .ok container => ExitCode.exit container []
  | .error failure => do
    let handling := (← get).suppressor.handle (.run failure)
    modify fun world => { world with suppressor := handling.suppressor }
    handling.log.forM Running.tell
    return handling.exitCode.getD 1

/-- How the program ends. -/
structure Ending where
  /-- The exit status. -/
  status : Nat
  /-- The form of its log. -/
  format : LogFormat
  /-- What its log shows. -/
  shown : List LogEvent

/-- Runs the program over its arguments. -/
def run (surroundings : Surroundings) (args : List String) : Ending :=
  let whole : Running Memory Int := do
    exitCode (← (application surroundings).run args)
  let (code, world) := whole { state := {} }
  { status := ExitCode.status code
    format := ((world.state.telemetry.installed.map (·.format))).getD .compact
    shown := LogRecord.visible none world.log }

end Ignition.Program
