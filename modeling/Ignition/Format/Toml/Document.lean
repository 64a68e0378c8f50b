import Ignition.Format.Toml.Number
import Ignition.Format.Toml.Quoted
import Ignition.Format.Toml.Table

/-!
# TOML documents

A document is a sequence of lines, each of which is blank, gives a key a value, or is a header. A header in single brackets opens a
table, one in double brackets the next element of an array of tables, and the keys behind a header belong to the table it opened.
Values may contain values in arrays, which may span lines, and in tables in braces, which may not. They may not be nested 80 deep.
-/

namespace Ignition.Toml

namespace Reading

/-- Passes on the result of putting tables together; the failure is here. -/
def built {α : Type} : Except TableError α → Reading α
  | .ok result => pure result
  | .error (.repeated name) => fail ("duplicate key " ++ name)
  | .error (.notTable name) => fail ("key " ++ name ++ " is no table")

/-- Reads the items of an array up to the closing bracket. -/
def arrayItems (item : Reading Value) : (fuel : Nat) → Reading (List Value)
  | 0 => fail "unclosed array"
  | fuel + 1 => do
    blanks
    if ← takes "]" then return []
    let value ← item
    blanks
    if ← takes "," then return value :: (← arrayItems item fuel)
    expect "]"
    return [value]

/-- Reads the entries of a table in braces, behind those read already, up to the closing brace. -/
def inlineEntries (item : Reading Value) : (fuel : Nat) → Contents → Reading Contents
  | 0, _ => fail "unclosed table"
  | fuel + 1, contents => do
    let (way, name) ← key
    expect "="
    spaces
    let value ← item
    spaces
    let contents ← built (contents.assign way name value)
    if ← takes "," then inlineEntries item fuel contents
    else
      expect "\x7d"
      return contents

/-- Reads a value; `inner` reads one inside it, if there may be one. -/
def valueWith (inner : Option (Reading Value)) : Reading Value := do
  match ← peek with
  | some '"' => return .string (← text '"')
  | some '\'' => return .string (← text '\'')
  | some '[' =>
    expect "["
    match inner with
    | some inner => return .array (← arrayItems inner (← get).length)
    | none => fail "recursion limit exceeded"
  | some '{' =>
    expect "\x7b"
    match inner with
    | some inner =>
      spaces
      if ← takes "\x7d" then return .table []
      return (← inlineEntries inner (← get).length []).finish
    | none => fail "recursion limit exceeded"
  | some 't' =>
    expect "true"
    return .flag true
  | some 'f' =>
    expect "false"
    return .flag false
  | _ => number

/-- Reads a value in which values may be nested `depth` deep. -/
def value : (depth : Nat) → Reading Value
  | 0 => valueWith none
  | depth + 1 => valueWith (some (value depth))

/-- The document as far as it was read. -/
structure Draft where
  /-- What the root holds. -/
  contents : Contents := []
  /-- The way from the root to the table that keys belong to. -/
  header : List String := []

/-- Reads a header. -/
def headerLine (draft : Draft) : Reading Draft := do
  expect "["
  let isElement ← takes "["
  let (way, name) ← key
  expect (if isElement then "]]" else "]")
  restOfLine
  let contents ← built (if isElement then draft.contents.openElement way name else draft.contents.openTable way name)
  return { contents, header := way ++ [name] }

/-- Reads a key with its value. -/
def keyLine (draft : Draft) : Reading Draft := do
  let (way, name) ← key
  expect "="
  spaces
  let value ← value (depthLimit - 1)
  restOfLine
  return { draft with contents := ← built (draft.contents.assignBelow draft.header way name value) }

/-- Reads the lines that are left; `fuel` bounds their number. -/
def linesFrom : (fuel : Nat) → Draft → Reading Contents
  | 0, draft => return draft.contents
  | fuel + 1, draft => do
    spaces
    match ← peek with
    | none => return draft.contents
    | some '#' =>
      restOfLine
      linesFrom fuel draft
    | some '[' => linesFrom fuel (← headerLine draft)
    | some c =>
      if c = '\n' || c = '\r' then
        restOfLine
        linesFrom fuel draft
      else linesFrom fuel (← keyLine draft)

/-- Reads a document, perhaps behind a byte order mark. -/
def document : Reading Value := do
  let _ ← takes "\ufeff"
  return (← linesFrom ((← get).length + 1) {}).finish

end Reading

/-- What is wrong with the form of a document, and where. -/
structure Error where
  /-- What is wrong. -/
  problem : String
  /-- The line, counted from one. -/
  line : Nat
deriving DecidableEq, Repr, Inhabited

/-- The error in words. -/
def Error.message (error : Error) : String :=
  "TOML parse error at line " ++ Text.decimal error.line ++ ": " ++ error.problem

/-- The table that a text writes. -/
def Value.parse (text : String) : Except Error Value :=
  match Reading.document.run text.toList with
  | .ok (value, _) => .ok value
  | .error fault =>
    let before := text.toList.take (text.length - fault.left)
    .error { problem := fault.problem, line := before.count '\n' + 1 }

/-- The entries of a text. -/
def parse (text : String) : Except Error Entries :=
  (Value.parse text).map (·.flatten "")

end Ignition.Toml
