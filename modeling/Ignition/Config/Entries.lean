/-!
# Entries

An ordered list of keys with their values. A key that is given twice keeps the place of its first occurrence and the value of
its last, so a list without repeated keys is what it stands for. Looking up a key takes the first entry for it.
-/

namespace Ignition

/-- Keys with their values, in order. -/
abbrev Entries := List (String × String)

namespace Entries

/-- Gives a key a value: in its place if it has one, else behind all others. -/
def put (key value : String) : Entries → Entries
  | [] => [(key, value)]
  | (k, v) :: rest => if k = key then (k, value) :: rest else (k, v) :: put key value rest

/-- Each key once, in order of first occurrence, with its last value. -/
def collapse (entries : Entries) : Entries :=
  entries.foldl (fun collapsed (key, value) => put key value collapsed) []

/-- The value of the first entry for a key. -/
def get? (entries : Entries) (key : String) : Option String :=
  (entries.find? (·.1 = key)).map (·.2)

/-- The keys in order. -/
def keys (entries : Entries) : List String :=
  entries.map (·.1)

end Entries

end Ignition
