import Ignition.Config.Environment
import Ignition.Text.Blank

/-!
# Log settings

What an environment says about logging: a filter, and one of two formats. The filter is only trimmed here; whether it is a
filter at all is decided where it is used. The word for a format may be in any case; where settings are stored, only the
lower-case word counts.
-/

namespace Ignition

/-- The form of a log line. -/
inductive LogFormat where
  /-- One object of fields per line. -/
  | json
  /-- One line of text. -/
  | compact
deriving DecidableEq, Repr, Inhabited

namespace LogFormat

/-- The word for a format. -/
def text : LogFormat → String
  | .json => "json"
  | .compact => "compact"

/-- The format that a stored word stands for. -/
def decode? (word : String) : Option LogFormat :=
  [json, compact].find? (·.text = word)

/-- The format that a word stands for, in any case. -/
def parse? (word : String) : Option LogFormat :=
  [json, compact].find? (Text.sameWord ·.text word)

/-- What is wrong with a word that stands for no format. -/
def unknown : String := "Matching variant not found"

end LogFormat

/-- A setting whose value cannot be used. -/
structure InvalidValue where
  /-- The key of the setting. -/
  key : String
  /-- Its value. -/
  value : String
  /-- What is wrong with it. -/
  reason : String
deriving DecidableEq, Repr, Inhabited

/-- What an environment says about logging. -/
structure LogSettings where
  /-- Which events are logged. -/
  filter : String := Default.logFilter
  /-- In which form. -/
  format : LogFormat := .compact
deriving DecidableEq, Repr, Inhabited

/-- The log settings of an environment. -/
def LogSettings.ofEnvironment (env : Environment) : Except InvalidValue LogSettings :=
  let filter := ((env.get? Key.logLevel).map Text.trimString).getD Default.logFilter
  match env.get? Key.logFormat with
  | none => .ok { filter }
  | some value =>
    match LogFormat.parse? (Text.trimString value) with
    | some format => .ok { filter, format }
    | none => .error { key := Key.logFormat, value, reason := LogFormat.unknown }

end Ignition
