import Ignition.Run.World

/-!
# Exit codes

The exit code of an application is put together from contributions, one after the other, beginning with zero. A positive code counts
if it is greater than what there is, a negative one if it is less, so a later code of the other sign always counts. A contribution that
fails counts as one, but only while there is nothing else.
-/

namespace Ignition

/-- What one contributor says. -/
inductive Contribution where
  /-- A code. -/
  | code (value : Int)
  /-- Nothing, because it failed. -/
  | failed (failure : Failure)
deriving DecidableEq, Repr, Inhabited

namespace ExitCode

/-- The code after one more contribution. -/
def after (current : Int) : Contribution → Int
  | .code value => if (0 < value && current < value) || (value < 0 && value < current) then value else current
  | .failed _ => if current = 0 then 1 else current

/-- The code that contributions make together. -/
def aggregate (contributions : List Contribution) : Int :=
  contributions.foldl after 0

/-- The event that tells of a contribution that failed. -/
def failureEvent (failure : Failure) : LogEvent :=
  { level := .warn, target := LogTarget.exit, message := "exit code contributor failed"
    fields := [("error", .text failure.message)] }

/-- The code for a failed run: what the mappers of an active container make of it, or else what the outermost request in its chain
asks for; zero if there is neither. -/
def ofFailure (mappers : List ExitCodeMapper) (failure : Failure) : Int :=
  let mapped := aggregate (mappers.map fun mapper => .code (mapper failure))
  if mapped ≠ 0 then mapped else failure.exitCode?.getD 0

variable {σ : Type}

/-- The code after asking contributors one after the other. -/
def consult : (current : Int) → List (ExitCodeContributor σ) → Running σ Int
  | current, [] => return current
  | current, contributor :: rest => do
    match ← Running.perform .consulted contributor with
    | .ok value => consult (after current (.code value)) rest
    | .error failure =>
      Running.tell (failureEvent failure)
      consult (after current (.failed failure)) rest

/-- Ends an application: asks the contributors of its container and then some others, publishes the code unless it is zero, and closes
the container. A container that fails to close makes a code of one, unless there is another one. -/
def exit (container : Container σ) (contributors : List (ExitCodeContributor σ)) : Running σ Int := do
  let own ← Running.look container.contributors
  let code ← consult 0 (own ++ contributors)
  if code ≠ 0 then Running.perform (.published code) (container.publish code)
  match ← Running.perform .closed container.close with
  | .ok () => return code
  | .error failure =>
    Running.tell
      { level := .error, target := LogTarget.exit, message := "failed to close the application container"
        fields := [("error", .text failure.message)] }
    return if code = 0 then 1 else code

/-- The status that a process ends with: the code modulo 256. -/
def status (code : Int) : Nat :=
  (code % 256).toNat

end ExitCode

end Ignition
