import Ignition.Config.Names
import Ignition.Format.Yaml.Value
import Ignition.Text.Blank

/-!
# Configuration in YAML

A text may hold several documents, each of which has to be a mapping or empty; its entries are those of the flattened mapping. A
document may say which profiles it is for. Without such a word it is read when no profile is asked for, and only then. With it,
it is read for the profiles named; an exclamation mark in front of a name means all profiles but that one.
-/

namespace Ignition.Yaml

/-- What can be wrong with a configuration file in this format. -/
inductive Error where
  /-- The text has not the form of documents. -/
  | malformed (problem : SyntaxError)
  /-- The form of a document is right, but it has no value. -/
  | meaningless (problem : String)
  /-- A document, counted from zero, is not a mapping. -/
  | notMapping (document : Nat)
deriving DecidableEq, Repr, Inhabited

/-- The error in words. -/
def Error.message : Error → String
  | malformed problem =>
    problem.problem ++ " at line " ++ Text.decimal problem.line ++ " column " ++ Text.decimal problem.column
  | meaningless problem => problem
  | notMapping document => "document " ++ Text.decimal document ++ " must be a mapping"

/-- The entries of each document that has any; `index` counts the documents before these. -/
def entriesOfValues (index : Nat) : List Value → Except Error (List Entries)
  | [] => .ok []
  | value :: rest =>
    match value.untagged, value with
    | .mapping _, _ | .scalar _, .tagged .. | .sequence _, .tagged .. => do
      let later ← entriesOfValues (index + 1) rest
      let entries := value.flatten ""
      return if entries.isEmpty then later else entries :: later
    | .scalar .null, _ => entriesOfValues (index + 1) rest
    | _, _ => .error (.notMapping index)

/-- The profiles that a document names, each perhaps behind an exclamation mark. -/
def profileExpressions (entries : Entries) : List String :=
  (entries.filter fun (key, _) =>
    key = Key.documentProfiles || Text.startsWith (Key.documentProfiles ++ "[") key).flatMap
      fun (_, value) => Text.listEntries value

/-- Whether an expression stands for a profile. -/
def expressionHolds (profile expression : String) : Bool :=
  match Text.dropStart? "!" expression with
  | some name => name ≠ profile
  | none => expression = profile

/-- Whether a document is read when a profile, or none, is asked for. -/
def applies (profile : Option String) (entries : Entries) : Bool :=
  match profile with
  | none => (profileExpressions entries).isEmpty
  | some profile => (profileExpressions entries).any (expressionHolds profile)

/-- The entries of all documents that apply, in order. -/
def selected (profile : Option String) (documents : List Entries) : Entries :=
  (documents.filter (applies profile)).flatten

/-- The values of documents in order, up to the first that has none. -/
def values : List Document → List Value × Option Error
  | [] => ([], none)
  | document :: rest =>
    match document.value with
    | .error problem => ([], some (.meaningless problem))
    | .ok value =>
      let (later, problem) := values rest
      (value :: later, problem)

/-- The entries of each document of a text that has any. The first document at fault decides which error is reported. -/
def parse (text : String) : Except Error (List Entries) := do
  let (documents, problem) := documents text
  let (values, valueProblem) := values documents
  let entries ← entriesOfValues 0 values
  match valueProblem, problem with
  | some problem, _ => throw problem
  | none, some problem => throw (.malformed problem)
  | none, none => return entries

end Ignition.Yaml
