import Ignition.Process.Identifier
import Ignition.Run.Collaborator
import Ignition.Text.Quoted

/-!
# Writing the process identifier

The observer that writes the identifier of the process to a file, as soon as the container has loaded what it is made of. The path of
the file is given to the observer, or else the environment says it.
-/

namespace Ignition.ProcessIdentifier

/-- The path of the file in an environment. -/
def pathIn (env : Environment) : String :=
  (env.get? Key.pidFile).getD Default.pidFile

/-- The event that tells of the file. -/
def event (number : Nat) (path : String) : LogEvent :=
  { level := .info, target := LogTarget.process, message := "wrote PID file"
    fields := [("path", .text path), ("pid", .text ("Some(" ++ Text.decimal number ++ ")"))] }

/-- The observer that writes the file. -/
def observer {σ : Type} (part : Part σ FileSystem) (number : Nat) (path : Option String) : Observer σ where
  name := "pid-file"
  contextLoaded container state :=
    let path := path.getD (pathIn container.environment)
    let (written, files) := write (some number) path (part.get state)
    (written.mapError failureOf, part.set files state,
      match written with
      | .ok _ => [.event (event number path)]
      | .error _ => [])
where
  /-- The error as a failure; the words of the operating system are its cause. -/
  failureOf (error : IdentifierError) : Failure :=
    { fault := .identifier error
      causes := match error with
        | .unavailable => []
        | .directory _ reason | .write _ reason => [.plain reason] }

end Ignition.ProcessIdentifier
