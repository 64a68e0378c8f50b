/-!
# Resources

A resource is a text that was found at a location. Whoever looks for one may find it, may find nothing there, which is the common
case, or may fail: the location may be of a kind that is not understood, or what is there cannot be read.
-/

namespace Ignition

/-- A text found at a location. -/
structure Resource where
  /-- The location that was asked for. -/
  location : String
  /-- Where the text was found, for a reader of logs. -/
  description : String
  /-- The text. -/
  contents : String
deriving DecidableEq, Repr, Inhabited

/-- Why a location gives no answer. -/
inductive ResourceError where
  /-- There is something, but it cannot be read. -/
  | read (location reason : String)
  /-- The location is of a kind that is not understood. -/
  | unsupported (location : String)
deriving DecidableEq, Repr, Inhabited

/-- The error in words. -/
def ResourceError.message : ResourceError → String
  | read location reason => "failed to read resource '" ++ location ++ "': " ++ reason
  | unsupported location => "unsupported resource location '" ++ location ++ "'"

/-- What is known about locations: the answer at each of them. -/
abbrev Resources := String → Except ResourceError (Option Resource)

/-- Resources held in memory, by location. -/
def Resources.ofList (texts : List (String × String)) : Resources := fun location =>
  .ok ((texts.find? (·.1 = location)).map fun (_, contents) => { location, description := location, contents })

end Ignition
