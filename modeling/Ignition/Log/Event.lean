import Ignition.Config.LogSettings
import Ignition.Text.Integer

/-!
# Log events

What happens is told by events. An event has a level of severity, a target that says which part of the library tells it, a message
and named fields. Events are kept in order together with the moments at which a log was set up, because only what comes after such a
moment can be seen in it.
-/

namespace Ignition

/-- How severe an event is. -/
inductive LogLevel where
  /-- A failure. -/
  | error
  /-- Something that looks wrong. -/
  | warn
  /-- Something of interest to an operator. -/
  | info
  /-- A detail. -/
  | debug
  /-- A small detail. -/
  | trace
deriving DecidableEq, Repr, Inhabited

namespace LogLevel

/-- How many levels are at least as severe. -/
def rank : LogLevel → Nat
  | .error => 1
  | .warn => 2
  | .info => 3
  | .debug => 4
  | .trace => 5

/-- The word for a level. -/
def text : LogLevel → String
  | .error => "ERROR"
  | .warn => "WARN"
  | .info => "INFO"
  | .debug => "DEBUG"
  | .trace => "TRACE"

end LogLevel

/-- The value of a field of an event. -/
inductive LogValue where
  /-- Text. -/
  | text (value : String)
  /-- A number. -/
  | number (value : Int)
  /-- A truth value. -/
  | flag (value : Bool)
deriving DecidableEq, Repr, Inhabited

/-- The value as text. -/
def LogValue.render : LogValue → String
  | .text value => value
  | .number value => Text.signedDecimal value
  | .flag value => if value then "true" else "false"

/-- Something that happened. -/
structure LogEvent where
  /-- How severe it is. -/
  level : LogLevel
  /-- Which part tells it. -/
  target : String
  /-- What happened, in words. -/
  message : String
  /-- The details by name. -/
  fields : List (String × LogValue) := []
deriving DecidableEq, Repr, Inhabited

/-- An entry of the record of what happened. -/
inductive LogRecord where
  /-- Something happened. -/
  | event (event : LogEvent)
  /-- A log was set up. -/
  | installed (settings : LogSettings)
deriving DecidableEq, Repr, Inhabited

/-! ## The parts that tell events -/

namespace LogTarget

/-- The search for configuration files. -/
def discovery : String := "liftoff_config::resolver"

/-- The run of an application. -/
def run : String := "liftoff::run"

/-- The notification of observers. -/
def lifecycle : String := "liftoff::lifecycle"

/-- The container. -/
def container : String := "liftoff::container"

/-- What concerns the process as a whole. -/
def process : String := "liftoff::process"

/-- Exit codes. -/
def exit : String := "liftoff::exit"

/-- The diagnosis of failures. -/
def diagnostics : String := "liftoff::diagnostics"

/-- The last resort for failures. -/
def suppressor : String := "liftoff::suppressor"

/-- The log itself. -/
def telemetry : String := "liftoff::telemetry"

end LogTarget

end Ignition
