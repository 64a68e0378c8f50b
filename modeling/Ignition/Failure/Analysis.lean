import Ignition.Failure.Basic

/-!
# The diagnosis of failures

An analyzer looks at a failure and, if it knows what to say about it, describes what went wrong and perhaps what to do about it. Of
several analyzers the first with something to say is heard. Those of the library look for one kind of fault in the chain and speak of
the outermost one.
-/

namespace Ignition

/-- What can be said about a failure. -/
structure Analysis where
  /-- What went wrong. -/
  description : String
  /-- What to do about it. -/
  action : Option String := none
  /-- The words of the fault that it is about. -/
  cause : String
deriving DecidableEq, Repr, Inhabited

/-- Looks at a failure. -/
abbrev Analyzer := Failure → Option Analysis

namespace Analysis

/-- The banner over a report. -/
def banner : String :=
  "\n\n***************************\nAPPLICATION FAILED TO START\n***************************\n\n"

/-- The report to an operator. -/
def render (analysis : Analysis) : String :=
  banner ++ "Description:\n\n" ++ analysis.description ++ "\n" ++
    match analysis.action with
    | some action => "\nAction:\n\n" ++ action ++ "\n"
    | none => ""

/-- The event that reports an analysis. -/
def event (analysis : Analysis) : LogEvent :=
  { level := .error, target := LogTarget.diagnostics, message := analysis.render
    fields := [("cause", .text analysis.cause)] }

end Analysis

namespace Analyzer

/-- Speaks of configuration files that cannot be read or make no layer. -/
def configFile : Analyzer := fun failure =>
  failure.config?.bind fun error =>
    let cause := Failure.textOf error.causes
    match error.fault with
    | .load location => some
        { description := "Configuration file '" ++ location ++ "' could not be loaded:\n\n    " ++ cause
          action := some ("Fix the syntax of '" ++ location ++ "' or remove it from the configured search locations.")
          cause := error.message }
    | .read location => some
        { description := "Configuration file '" ++ location ++ "' could not be read:\n\n    " ++ cause
          action := some ("Check that '" ++ location ++ "' is readable UTF-8 text.")
          cause := error.message }
    | _ => none

/-- What to do about a fault of the configuration other than a file. -/
def remedy? : ConfigFault → Option String
  | .load _ | .read _ => none
  | .profile error => some ("Review the profile names listed under '" ++ error.key ++ "'.")
  | .placeholder (.unresolvable key _) => some ("Define '" ++ key ++ "' or give the placeholder a default value.")
  | .placeholder (.circular key _) => some ("Break the reference cycle through '" ++ key ++ "'.")
  | .placeholder (.tooDeep _) => some "Nest fewer placeholders."
  | .argument _ => some "Pass options as --name=value or --name."
  | .value error => some ("Update '" ++ error.key ++ "' to a supported value.")
  | .tooManyPasses _ => some "Let fewer profiles ask for others."

/-- Speaks of all other faults of the configuration. -/
def configBinding : Analyzer := fun failure =>
  failure.config?.bind fun error =>
    (remedy? error.fault).map fun action =>
      { description := "Configuration could not be bound:\n\n    " ++ error.message
        action := some action
        cause := error.message }

/-- Speaks of a port that is taken. -/
def portInUse : Analyzer := fun failure =>
  failure.port?.map fun port =>
    let number := Text.decimal port
    { description := "The application tried to listen on port " ++ number ++ ", which is already in use."
      action := some ("Stop the process listening on port " ++ number ++ " or configure a different port.")
      cause := (Fault.portInUse port).text "" }

/-- The analyzers that are asked unless others are given. -/
def standard : List Analyzer :=
  [configFile, configBinding, portInUse]

/-- What the first analyzer that recognises a failure says of it. -/
def first? (analyzers : List Analyzer) (failure : Failure) : Option Analysis :=
  analyzers.findSome? (· failure)

end Analyzer

end Ignition
