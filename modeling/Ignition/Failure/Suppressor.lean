import Ignition.Failure.Basic
import Ignition.Text.Quoted

/-!
# Failures that were reported

A run that fails reports its failure, and then the failure leaves the run. Whoever meets it outside must not report it once more, but
has to know with which exit code to end. A suppressor keeps both: which failures were reported, and the exit code of the last one that
had one. Reported failures are told apart by a number and not by what they say, since two runs may fail in the same words.

Two things are always reported at the last resort: failures that are not known to the suppressor, and failures of the log itself,
whose report may not have been seen.
-/

namespace Ignition

/-- A failure of a run that was reported. -/
structure RunFailure where
  /-- The number that tells it apart. -/
  number : Nat
  /-- What went wrong. -/
  error : RunError
  /-- The exit code; zero if there is none for it. -/
  exitCode : Int
deriving DecidableEq, Repr, Inhabited

/-- Whether two failures are one and the same. -/
def RunFailure.isSame (a b : RunFailure) : Bool :=
  a.number = b.number

/-- A failure that nobody dealt with. -/
inductive EscapedFailure where
  /-- A failure of a run. -/
  | run (failure : RunFailure)
  /-- Any other failure. -/
  | other (failure : Failure)
deriving DecidableEq, Repr, Inhabited

/-- What went wrong. -/
def EscapedFailure.failure : EscapedFailure → Failure
  | run failure => failure.error.failure
  | other failure => failure

/-- The failures that were reported, and the exit code to end with. -/
structure Suppressor where
  /-- The numbers of the failures. -/
  registered : List Nat := []
  /-- The exit code registered last. -/
  exitCode : Int := 0
deriving DecidableEq, Repr, Inhabited

namespace Suppressor

/-- Takes note that a failure was reported. -/
def register (suppressor : Suppressor) (failure : RunFailure) : Suppressor :=
  if suppressor.registered.contains failure.number then suppressor
  else { suppressor with registered := suppressor.registered ++ [failure.number] }

/-- Takes note of the exit code to end with. -/
def registerCode (suppressor : Suppressor) (code : Int) : Suppressor :=
  { suppressor with exitCode := code }

/-- Whether a failure is known to have been reported. -/
def isRegistered (suppressor : Suppressor) : EscapedFailure → Bool
  | .run failure => suppressor.registered.contains failure.number
  | .other _ => false

/-- Whether a failure is about the log itself. -/
def isAboutLog (failure : Failure) : Bool :=
  failure.messages.any (Text.contains logConfigurationError)

/-- The event that reports a failure at the last resort. -/
def event (failure : Failure) : LogEvent :=
  { level := .error, target := LogTarget.suppressor, message := "application failed"
    fields := [("error", .text failure.message), ("causes", .text (Text.quotedList failure.messages))] }

/-- Whether a failure has to be reported at the last resort. -/
def reports (suppressor : Suppressor) (failure : EscapedFailure) : Bool :=
  isAboutLog failure.failure || !suppressor.isRegistered failure

/-- What is left to do about a failure. -/
structure Handling where
  /-- The exit code to end with, if there is one. -/
  exitCode : Option Int
  /-- The suppressor, which knows no failure any more. -/
  suppressor : Suppressor
  /-- The report, if there has to be one. -/
  log : List LogEvent
deriving DecidableEq, Repr

/-- Deals with a failure at the last resort. -/
def handle (suppressor : Suppressor) (failure : EscapedFailure) : Handling where
  exitCode := if suppressor.exitCode = 0 then none else some suppressor.exitCode
  suppressor := { suppressor with registered := [] }
  log := if suppressor.reports failure then [event failure.failure] else []

end Suppressor

end Ignition
