/-!
# Names with a meaning

The property keys that the library itself reads, the names of the layers that it makes, and the values that stand in where
nothing is configured.
-/

namespace Ignition

/-! ## Keys that are read from an environment -/

namespace Key

/-- The profiles to activate, separated by commas. -/
def activeProfiles : String := "liftoff.profiles.active"

/-- The profiles to include beside the active ones, separated by commas. -/
def includedProfiles : String := "liftoff.profiles.include"

/-- The profiles a document of a file is for. -/
def documentProfiles : String := "liftoff.profiles"

/-- The base names of configuration files. -/
def searchNames : String := "liftoff.config.name"

/-- Further places to search for configuration files. -/
def searchLocations : String := "liftoff.config.location"

/-- The name of the application, for its log. -/
def applicationName : String := "liftoff.main.application-name"

/-- The path of the file that holds the process identifier. -/
def pidFile : String := "liftoff.pid.file"

/-- The log filter. -/
def logLevel : String := "logging.level"

/-- The log format. -/
def logFormat : String := "logging.format"

/-- The key that collects the positional arguments. -/
def positionalArguments : String := "nonOptionArgs"

end Key

/-! ## Layers with a fixed role -/

namespace LayerName

/-- The layer of last resort. -/
def defaults : String := "defaultProperties"

/-- The layer of environment variables. -/
def system : String := "systemEnvironment"

/-- The layer that answers with random values. -/
def random : String := "random"

/-- The layer of command-line arguments. -/
def commandLine : String := "commandLineArgs"

/-- The start of the names of all layers read from files. -/
def fileLayer : String := "applicationConfig"

end LayerName

/-! ## What stands in where nothing is configured -/

namespace Default

/-- The places searched for configuration files, lowest precedence first. -/
def searchLocations : List String := ["classpath:/", "classpath:/config/", "file:./", "file:./config/"]

/-- The base names of configuration files. -/
def searchNames : List String := ["application"]

/-- The profile that applies if none is active. -/
def profile : String := "default"

/-- How deeply expansions of placeholders may be nested: more deeply than any memory holds, so that in effect only memory sets a
limit. -/
def nesting : Nat := 1000000000000000000

/-- How many passes a search may make: more than any time allows, so that in effect only time sets a limit. -/
def passLimit : Nat := 1000000000000000000

/-- The log filter. -/
def logFilter : String := "info"

/-- The name of an application. -/
def applicationName : String := "application"

/-- The path of the file that holds the process identifier. -/
def pidFile : String := "application.pid"

end Default

end Ignition
