import Ignition.Log.Line
import Ignition.Program

/-!
# The command line

The outer layer of the program: it collects what the program is started with, reads the files that the program asks for, runs it, and
writes its log to the standard error stream.
-/

namespace Ignition

/-- What there is at a path of the file system of the machine. -/
def readPath (path : String) : IO (Option (Except String ByteArray)) := do
  try
    return some (.ok (← IO.FS.readBinFile path))
  catch
    | .noFileOrDirectory .. | .noSuchThing .. | .inappropriateType .. => return none
    | error => return some (.error (toString error))

/-- The environment variables of the process. -/
def readVariables : IO Entries := do
  match ← readPath "/proc/self/environ" with
  | some (.ok bytes) =>
    let text := (String.fromUTF8? bytes).getD ""
    return (Text.split '\x00' text.toList).filterMap fun entry =>
      (Text.cut '=' entry).map fun (name, value) => (String.ofList name, String.ofList value)
  | _ => return []

/-- The reader that knows what there is at some paths. -/
def readerOf (known : List (String × Option (Except String ByteArray))) : FileLookup.Reader := fun path =>
  ((known.find? (·.1 = path)).map (·.2)).join

/-- Reads the files that the program looks up, until it asks for no others. -/
partial def gather (surroundings : Program.Surroundings) (args : List String)
    (known : List (String × Option (Except String ByteArray))) : IO Resources := do
  let lookup : FileLookup := {}
  let resources := lookup.resourcesOf (readerOf known)
  let wanted := (Program.probed { surroundings with resources } args).flatMap fun location =>
    (lookup.candidates location).toOption.getD []
  let missing := wanted.eraseDups.filter fun path => !known.any (·.1 = path)
  if missing.isEmpty then return resources
  gather surroundings args (known ++ (← missing.mapM fun path => do return (path, ← readPath path)))

end Ignition

open Ignition in
/-- Runs the program. One number is drawn for all random values of the run. -/
def main (args : List String) : IO UInt32 := do
  let started ← IO.monoMsNow
  let other ← IO.rand 0 (Nat.pow 2 128 - 1)
  let surroundings : Program.Surroundings := { system := ← readVariables, draws := { other }, resources := fun _ => .ok none }
  let resources ← gather surroundings args []
  let elapsed := (← IO.monoMsNow) - started
  let ending := Program.run { surroundings with resources, elapsed } args
  ending.shown.forM fun event => IO.eprintln (ending.format.line event)
  return UInt32.ofNat ending.status
