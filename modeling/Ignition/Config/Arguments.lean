import Ignition.Config.Environment
import Ignition.Text.Basic

/-!
# Command-line arguments

An argument that begins with two dashes is an option, `--name` or `--name=value`; every other argument is positional. An option
may be given several times and collects its values; given without a value it adds none. An option needs a name.

As a layer of properties, an option has its values joined with commas, and the positional arguments are joined under a key of
their own.
-/

namespace Ignition

/-- What a command line says. -/
structure Arguments where
  /-- The options in order of first occurrence, each with its values. -/
  options : List (String × List String) := []
  /-- The positional arguments. -/
  positional : List String := []
deriving DecidableEq, Repr, Inhabited

/-- An argument that has the form of an option but no name. -/
structure InvalidArgument where
  /-- The argument. -/
  argument : String
deriving DecidableEq, Repr, Inhabited

namespace Arguments

/-- The options with one more occurrence of a name; a new name comes last. -/
def addOption (name : String) (value : Option String) : List (String × List String) → List (String × List String)
  | [] => [(name, value.toList)]
  | (known, values) :: rest =>
    if known = name then (known, values ++ value.toList) :: rest else (known, values) :: addOption name value rest

/-- What an argument is. -/
inductive Argument where
  /-- An option with the value given here. -/
  | option (name : String) (value : Option String)
  /-- A positional argument. -/
  | positional (text : String)
deriving DecidableEq, Repr

/-- What an argument is; `none` for an option without a name. -/
def Argument.ofText? (text : String) : Option Argument :=
  match Text.dropStart? "--" text with
  | none => some (.positional text)
  | some body =>
    match Text.cutString '=' body with
    | some (name, value) => if name.isEmpty then none else some (.option name (some value))
    | none => if body.isEmpty then none else some (.option body none)

/-- What is known after one more argument. -/
def add (arguments : Arguments) : Argument → Arguments
  | .option name value => { arguments with options := addOption name value arguments.options }
  | .positional text => { arguments with positional := arguments.positional ++ [text] }

/-- What a command line says, or its first argument that is invalid. -/
def parse (texts : List String) : Except InvalidArgument Arguments :=
  texts.foldlM (fun arguments text =>
    match Argument.ofText? text with
    | some argument => .ok (arguments.add argument)
    | none => .error ⟨text⟩) {}

/-- Whether the command line was empty. -/
def isEmpty (arguments : Arguments) : Bool :=
  arguments.options.isEmpty && arguments.positional.isEmpty

/-- The names of the options in order. -/
def optionNames (arguments : Arguments) : List String :=
  arguments.options.map (·.1)

/-- The values given for an option. -/
def optionValues? (arguments : Arguments) (name : String) : Option (List String) :=
  (arguments.options.find? (·.1 = name)).map (·.2)

/-- A command line that says the same: every option with each of its values, then the positional arguments. -/
def render (arguments : Arguments) : List String :=
  (arguments.options.flatMap fun (name, values) =>
    if values.isEmpty then ["--" ++ name] else values.map fun value => "--" ++ name ++ "=" ++ value) ++ arguments.positional

/-- The arguments as a layer. -/
def toLayer (arguments : Arguments) : Layer :=
  let options := arguments.options.map fun (name, values) => (name, Text.commaJoin values)
  let positional := if arguments.positional.isEmpty then []
    else [(Key.positionalArguments, Text.commaJoin arguments.positional)]
  Layer.ofEntries LayerName.commandLine (options ++ positional)

/-- Puts the arguments into an environment: over the layer of arguments that is there, in its place, or else ahead of all layers.
No arguments change nothing. -/
def applyTo (arguments : Arguments) (env : Environment) : Environment :=
  if arguments.isEmpty then env
  else match env.layer? LayerName.commandLine with
    | some layer => (env.replace? LayerName.commandLine (layer.overlaidBy arguments.toLayer)).getD env
    | none => env.addFirst arguments.toLayer

end Arguments

end Ignition
