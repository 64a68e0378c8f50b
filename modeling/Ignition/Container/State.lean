import Ignition.Config.Arguments
import Ignition.Log.Event

/-!
# The state of a container

A container in memory holds singletons by name and the names of the sources it was made from. It is refreshed once, which makes it
active, and closed once, which ends everything: the singletons are let go, the shutdown hook is taken down, and whatever is asked of
it afterwards is refused. It also keeps the exit codes that were published to it, even once closed. A call that is refused changes
nothing.
-/

namespace Ignition

/-- What a container holds under a name. -/
inductive Singleton where
  /-- Text. -/
  | text (value : String)
  /-- What the command line says. -/
  | arguments (arguments : Arguments)
  /-- The environment. -/
  | environment (environment : Environment)
deriving DecidableEq, Repr, Inhabited

/-- Why a container refuses a call. -/
inductive ContainerError where
  /-- It is closed. -/
  | closed
  /-- It is active already. -/
  | alreadyRefreshed
  /-- The name is taken. -/
  | duplicateSingleton (name : String)
deriving DecidableEq, Repr, Inhabited

/-- The error in words. -/
def ContainerError.message : ContainerError → String
  | closed => "the container is closed"
  | alreadyRefreshed => "the container was already refreshed"
  | duplicateSingleton name => "a singleton named '" ++ name ++ "' is already registered"

/-- The state of a container in memory. -/
structure ContainerState where
  /-- Whether it was refreshed and not closed. -/
  active : Bool := false
  /-- Whether it was closed. -/
  closed : Bool := false
  /-- The singletons by name. -/
  singletons : List (String × Singleton) := []
  /-- The sources that were loaded, in order. -/
  sources : List String := []
  /-- The exit codes that were published, in order. -/
  published : List Int := []
  /-- Whether a shutdown hook is in place. -/
  hasHook : Bool := false
deriving DecidableEq, Repr, Inhabited

/-- A new state and the events that tell how it came about. -/
structure ContainerChange where
  /-- The new state. -/
  state : ContainerState
  /-- What happened. -/
  events : List LogEvent := []
deriving DecidableEq, Repr, Inhabited

namespace ContainerState

/-- A detail of what happened to the container. -/
def event (message : String) (fields : List (String × LogValue)) : LogEvent :=
  { level := .debug, target := LogTarget.container, message, fields }

/-- A detail of what happened to the shutdown hook. -/
def hookEvent (message : String) (fields : List (String × LogValue)) : LogEvent :=
  { level := .debug, target := LogTarget.process, message, fields }

/-- The numbers of the signals that a shutdown hook listens for: terminate, interrupt, quit and hang-up. -/
def hookSignals : String := "[15, 2, 3, 1]"

/-- What is held under a name. -/
def singleton? (state : ContainerState) (name : String) : Option Singleton :=
  (state.singletons.find? (·.1 = name)).map (·.2)

/-- Goes on unless the container is closed. -/
def whileOpen (state : ContainerState) (change : Except ContainerError ContainerChange) :
    Except ContainerError ContainerChange :=
  if state.closed then .error .closed else change

/-- Holds a value under a new name. -/
def register (state : ContainerState) (name : String) (value : Singleton) : Except ContainerError ContainerChange :=
  state.whileOpen <|
    if (state.singleton? name).isSome then .error (.duplicateSingleton name)
    else .ok { state := { state with singletons := state.singletons ++ [(name, value)] } }

/-- Loads sources behind those loaded before. -/
def load (state : ContainerState) (sources : List String) : Except ContainerError ContainerChange :=
  state.whileOpen <| .ok
    { state := { state with sources := state.sources ++ sources }
      events := [event "loaded sources" [("count", .number (Int.ofNat sources.length))]] }

/-- Makes the container active. -/
def refresh (state : ContainerState) : Except ContainerError ContainerChange :=
  state.whileOpen <|
    if state.active then .error .alreadyRefreshed
    else .ok { state := { state with active := true }, events := [event "container refreshed" []] }

/-- Puts a shutdown hook in place, unless there is one. -/
def installHook (state : ContainerState) : Except ContainerError ContainerChange :=
  state.whileOpen <|
    if state.hasHook then .ok { state }
    else .ok
      { state := { state with hasHook := true }
        events := [hookEvent "shutdown hook installed" [("signals", .text hookSignals)]] }

/-- Keeps an exit code. -/
def publish (state : ContainerState) (code : Int) : ContainerChange :=
  { state := { state with published := state.published ++ [code] }
    events := [event "exit code published" [("exit_code", .number code)]] }

/-- Closes the container, unless it is closed. -/
def close (state : ContainerState) : ContainerChange :=
  if state.closed then { state }
  else
    { state := { state with active := false, closed := true, singletons := [], hasHook := false }
      events := (if state.hasHook then [hookEvent "shutdown hook disarmed" []] else []) ++ [event "container closed" []] }

/-- Whether the container was refreshed and not closed. -/
def isActive (state : ContainerState) : Bool :=
  state.active && !state.closed

end ContainerState

end Ignition
