import Ignition.Config.Arguments
import Ignition.Config.LogSettings
import Ignition.Config.Placeholder
import Ignition.Config.Profile
import Ignition.Container.State
import Ignition.Format.Properties
import Ignition.Format.Toml.Document
import Ignition.Format.Yaml.Entries
import Ignition.Log.Filter
import Ignition.Process.Identifier
import Ignition.Run.Phase
import Ignition.Source.Resource

/-!
# Failures

A failure is a chain of faults, outermost first: each fault is caused by the one behind it. A fault by itself says what went wrong
where it was noticed; many faults put the words of their cause behind their own. Whoever asks for a fault of some kind takes the
outermost one.
-/

namespace Ignition

/-- What can go wrong with a configuration. -/
inductive ConfigFault where
  /-- A file is there but makes no layer, for the reason that is the cause. -/
  | load (location : String)
  /-- A file is there but cannot be read. -/
  | read (location : String)
  /-- An entry of a profile list is no name. -/
  | profile (error : InvalidProfile)
  /-- A text has no expansion. -/
  | placeholder (error : PlaceholderError)
  /-- A command-line argument is no option. -/
  | argument (error : InvalidArgument)
  /-- The value of a setting cannot be used. -/
  | value (error : InvalidValue)
  /-- Profiles lead to ever more profiles. -/
  | tooManyPasses (limit : Nat)
deriving DecidableEq, Repr, Inhabited

/-- What can go wrong in a run; all but the last have a cause. -/
inductive RunFault where
  /-- The configuration is at fault. -/
  | environment
  /-- An observer failed where that is fatal. -/
  | observer (name : String) (phase : Phase)
  /-- There is no container. -/
  | container
  /-- An initializer failed. -/
  | initializer (name : String)
  /-- The container does not take what it is made of. -/
  | load
  /-- The container does not become active. -/
  | refresh
  /-- There is no shutdown hook. -/
  | shutdownHook
  /-- A runner failed. -/
  | runner (name : String)
  /-- A phase was entered out of order; the current one is a word. -/
  | phaseOrder (current : String) (next : Phase)
deriving DecidableEq, Repr, Inhabited

/-- What can go wrong. -/
inductive Fault where
  /-- Something that is known by its words alone. -/
  | plain (message : String)
  /-- A request for an exit code. -/
  | exitRequest (code : Int) (message : String)
  /-- A port that is taken. -/
  | portInUse (port : Nat)
  /-- Something about a configuration. -/
  | config (fault : ConfigFault)
  /-- A location that gives no answer. -/
  | resource (error : ResourceError)
  /-- A properties file. -/
  | properties (error : Properties.Error)
  /-- A file in YAML. -/
  | yaml (error : Yaml.Error)
  /-- A file in TOML. -/
  | toml (error : Toml.Error)
  /-- A refusal of a container. -/
  | container (error : ContainerError)
  /-- The file with the process identifier. -/
  | identifier (error : IdentifierError)
  /-- A log filter that is none, for the reason that is the cause. -/
  | logFilter (filter : String)
  /-- What is wrong with a log filter. -/
  | filterSyntax (error : FilterError)
  /-- A log that cannot be set up. -/
  | logInstallation
  /-- Something about a run. -/
  | run (fault : RunFault)
deriving DecidableEq, Repr, Inhabited

/-- How messages about the log begin. -/
def logConfigurationError : String := "logging configuration error"

/-- A fault of placeholders in words. -/
def PlaceholderError.message : PlaceholderError → String
  | unresolvable key text => "could not resolve placeholder '" ++ key ++ "' in value \"" ++ text ++ "\""
  | circular key text => "circular placeholder reference '" ++ key ++ "' in value \"" ++ text ++ "\""
  | tooDeep text => "placeholders are nested too deeply in value \"" ++ text ++ "\""

/-- A fault of a configuration in words, given the words of its cause. -/
def ConfigFault.text (cause : String) : ConfigFault → String
  | load location => "failed to load configuration layer from location '" ++ location ++ "': " ++ cause
  | read location => "failed to read configuration file from location '" ++ location ++ "'"
  | profile error => "invalid profile '" ++ error.profile ++ "' in '" ++ error.key ++ "': " ++ error.reason
  | placeholder error => error.message
  | argument error => "invalid command-line argument '" ++ error.argument ++ "'"
  | value error => "invalid value '" ++ error.value ++ "' for '" ++ error.key ++ "': " ++ error.reason
  | tooManyPasses limit => "the profiles need more than " ++ Text.decimal limit ++ " passes"

/-- A fault of a run in words, given the words of its cause. -/
def RunFault.text (cause : String) : RunFault → String
  | environment => "failed to prepare the configuration environment: " ++ cause
  | observer name phase => "lifecycle observer '" ++ name ++ "' failed during " ++ phase.text ++ ": " ++ cause
  | container => "failed to create the application container: " ++ cause
  | initializer name => "container initializer '" ++ name ++ "' failed: " ++ cause
  | load => "failed to load the application container: " ++ cause
  | refresh => "failed to refresh the application container: " ++ cause
  | shutdownHook => "failed to register the shutdown hook: " ++ cause
  | runner name => "runner '" ++ name ++ "' failed: " ++ cause
  | phaseOrder current next => "cannot enter phase " ++ next.text ++ " from " ++ current

/-- The phase that a fault belongs to. -/
def RunFault.phase? : RunFault → Option Phase
  | environment => some .environmentPrepared
  | observer _ phase => some phase
  | container | initializer _ => some .contextPrepared
  | load => some .contextLoaded
  | refresh | shutdownHook => some .contextRefreshed
  | runner _ => some .runners
  | phaseOrder _ _ => none

/-- A fault in words, given the words of its cause. -/
def Fault.text (cause : String) : Fault → String
  | plain message => message
  | exitRequest code message => message ++ " (exit code " ++ Text.signedDecimal code ++ ")"
  | portInUse port => "port " ++ Text.decimal port ++ " is already in use"
  | config fault => fault.text cause
  | resource error => error.message
  | properties error => error.message
  | yaml error => error.message
  | toml error => error.message
  | container error => error.message
  | identifier error => error.message
  | logFilter filter => logConfigurationError ++ ": invalid log filter '" ++ filter ++ "': " ++ cause
  | filterSyntax error => error.message
  | logInstallation => logConfigurationError ++ ": failed to install telemetry subscriber: " ++ cause
  | run fault => fault.text cause

/-- A fault with its causes. -/
structure Failure where
  /-- The fault. -/
  fault : Fault
  /-- The faults that led to it, the closest one first. -/
  causes : List Fault := []
deriving DecidableEq, Repr, Inhabited

namespace Failure

/-- A failure known by its words alone. -/
def ofText (message : String) : Failure :=
  { fault := .plain message }

/-- A failure that another one caused. -/
def because (fault : Fault) (cause : Failure) : Failure :=
  { fault, causes := cause.fault :: cause.causes }

/-- All faults, outermost first. -/
def faults (failure : Failure) : List Fault :=
  failure.fault :: failure.causes

/-- The words for a chain of faults. -/
def textOf : List Fault → String
  | [] => ""
  | fault :: causes => fault.text (textOf causes)

/-- The failure in words. -/
def message (failure : Failure) : String :=
  textOf failure.faults

/-- The failures that begin with each of the faults of a chain. -/
def suffixes : List Fault → List Failure
  | [] => []
  | fault :: causes => { fault, causes } :: suffixes causes

/-- The failure itself and the failures that led to it, outermost first. -/
def chain (failure : Failure) : List Failure :=
  suffixes failure.faults

/-- The words of all failures of the chain. -/
def messages (failure : Failure) : List String :=
  failure.chain.map message

/-- The exit code that the outermost request in the chain asks for. -/
def exitCode? (failure : Failure) : Option Int :=
  failure.faults.findSome? fun
    | .exitRequest code _ => some code
    | _ => none

/-- The port of the outermost fault about one. -/
def port? (failure : Failure) : Option Nat :=
  failure.faults.findSome? fun
    | .portInUse port => some port
    | _ => none

end Failure

/-- A failure whose outermost fault is about a configuration. -/
structure ConfigError where
  /-- The fault. -/
  fault : ConfigFault
  /-- The faults that led to it, the closest one first. -/
  causes : List Fault := []
deriving DecidableEq, Repr, Inhabited

namespace ConfigError

/-- The error as a failure. -/
def failure (error : ConfigError) : Failure :=
  { fault := .config error.fault, causes := error.causes }

/-- The error in words. -/
def message (error : ConfigError) : String :=
  error.failure.message

/-- A file that makes no layer. -/
def load (location : String) (cause : Failure) : ConfigError :=
  { fault := .load location, causes := cause.faults }

/-- A file that cannot be read. -/
def read (location : String) (cause : ResourceError) : ConfigError :=
  { fault := .read location
    causes := .resource cause :: match cause with
      | .read _ reason => [.plain reason]
      | .unsupported _ => [] }

/-- The location of the file at fault. -/
def location? (error : ConfigError) : Option String :=
  match error.fault with
  | .load location | .read location => some location
  | _ => none

end ConfigError

/-- The outermost configuration error in the chain of a failure. -/
def Failure.config? (failure : Failure) : Option ConfigError :=
  failure.chain.findSome? fun link =>
    match link.fault with
    | .config fault => some { fault, causes := link.causes }
    | _ => none

/-- A failure whose outermost fault is about a run. -/
structure RunError where
  /-- The fault. -/
  fault : RunFault
  /-- The faults that led to it, the closest one first. -/
  causes : List Fault := []
deriving DecidableEq, Repr, Inhabited

namespace RunError

/-- The error as a failure. -/
def failure (error : RunError) : Failure :=
  { fault := .run error.fault, causes := error.causes }

/-- The error in words. -/
def message (error : RunError) : String :=
  error.failure.message

/-- An error that a failure caused. -/
def because (fault : RunFault) (cause : Failure) : RunError :=
  { fault, causes := cause.faults }

/-- A phase entered out of order. -/
def ofPhaseOrder (order : PhaseOrder) : RunError :=
  { fault := .phaseOrder ((order.current.map Phase.text).getD "none") order.next }

/-- The phase that the error belongs to. -/
def phase? (error : RunError) : Option Phase :=
  error.fault.phase?

end RunError

end Ignition
