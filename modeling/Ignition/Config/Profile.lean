import Ignition.Text.Blank

/-!
# Profiles

A profile is a named mode of an application. Profiles are known by their names alone: whether a profile was asked for or only
stands in because none was makes it no other profile. A set of profiles keeps them in order of insertion.

A list of profiles is written with commas; blanks around an entry and empty entries do not count, and a name must not contain a
blank.
-/

namespace Ignition

/-- A named mode of an application. -/
structure Profile where
  /-- The name. -/
  name : String
  /-- Whether the profile only stands in because none is active. -/
  standsIn : Bool := false
deriving DecidableEq, Repr, Inhabited

/-- Profiles in order of insertion, no two of one name. -/
structure ProfileSet where
  /-- The profiles in order. -/
  profiles : List Profile := []
deriving DecidableEq, Repr, Inhabited

namespace ProfileSet

/-- The names in order. -/
def names (set : ProfileSet) : List String :=
  set.profiles.map (·.name)

/-- Whether a profile of a name belongs to the set. -/
def contains (set : ProfileSet) (name : String) : Bool :=
  set.names.contains name

/-- The set with a profile, which is left out if one of its name is there already. -/
def insert (set : ProfileSet) (profile : Profile) : ProfileSet :=
  if set.contains profile.name then set else ⟨set.profiles ++ [profile]⟩

/-- The set with further profiles. -/
def extend (set : ProfileSet) (profiles : List Profile) : ProfileSet :=
  profiles.foldl insert set

/-- The set of some profiles. -/
def ofList (profiles : List Profile) : ProfileSet :=
  extend {} profiles

/-- Whether two sets hold the same profiles in the same order. -/
def same (a b : ProfileSet) : Bool :=
  a.names = b.names

/-- The set as text, for a log. -/
def text (set : ProfileSet) : String :=
  "[" ++ ", ".intercalate set.names ++ "]"

end ProfileSet

/-- An entry of a profile list that is no name. -/
structure InvalidProfile where
  /-- The key the list was read from. -/
  key : String
  /-- The entry. -/
  profile : String
  /-- What is wrong with it. -/
  reason : String
deriving DecidableEq, Repr, Inhabited

/-- What is wrong with a name that contains a blank. -/
def InvalidProfile.blankInName : String := "profile names must not contain whitespace"

/-- Whether a text contains a blank. -/
def hasBlank (text : String) : Bool :=
  text.toList.any Text.isBlank

/-- The profiles that a list names, read from a key; an error names the first entry with a blank in it. -/
def ProfileSet.parse (key list : String) : Except InvalidProfile ProfileSet :=
  let entries := Text.listEntries list
  match entries.find? hasBlank with
  | some profile => .error { key, profile, reason := InvalidProfile.blankInName }
  | none => .ok (ofList (entries.map fun name => { name }))

end Ignition
