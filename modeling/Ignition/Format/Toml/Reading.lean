import Ignition.Text.Basic

/-!
# Reading TOML text

A text is read from the left. A reading step takes some characters and gives what they stand for, or it fails and tells how much of
the text was left, which gives the line of the failure. This module holds the steps that all others are made of: words, blanks, line
ends and comments. A line ends with a line feed or with a carriage return in front of one; a carriage return by itself stands
nowhere.
-/

namespace Ignition.Toml

/-- A failure to read a text. -/
structure Fault where
  /-- What is wrong. -/
  problem : String
  /-- How many characters were left. -/
  left : Nat
deriving DecidableEq, Repr, Inhabited

/-- A reading step. -/
abbrev Reading := StateT (List Char) (Except Fault)

/-- Whether a character may stand in a comment or, unless it is a quote or a backslash, in a text between quotes. -/
def isVisible (c : Char) : Bool :=
  c = '\t' || (' ' ≤ c && c ≠ '\x7f')

/-- Whether a character is a space or a tab. -/
def isSpace (c : Char) : Bool :=
  c = ' ' || c = '\t'

namespace Reading

/-- A failure here. -/
def fail {α : Type} (problem : String) : Reading α := fun text =>
  .error { problem, left := text.length }

/-- The next character, which is not taken. -/
def peek : Reading (Option Char) :=
  return (← get).head?

/-- Takes the longest run of characters that satisfy a test. -/
def takeWhile (test : Char → Bool) : Reading (List Char) := fun text =>
  .ok (text.takeWhile test, text.dropWhile test)

/-- Takes a word, if it stands here. -/
def takes (word : String) : Reading Bool := fun text =>
  match word.toList.isPrefixOf? text with
  | some rest => .ok (true, rest)
  | none => .ok (false, text)

/-- Takes one of two words, if one stands here. -/
def takesEither (first second : String) : Reading Bool := do
  if ← takes first then return true
  takes second

/-- Takes a word, which has to stand here. -/
def expect (word : String) : Reading Unit := do
  if !(← takes word) then fail ("expected " ++ word)

/-- Takes spaces and tabs. -/
def spaces : Reading Unit := do
  let _ ← takeWhile isSpace

/-- Takes a line end, if one is here. -/
def lineBreak : Reading Bool :=
  takesEither "\n" "\r\n"

/-- Takes a comment, if one is here. -/
def comment : Reading Unit := do
  if ← takes "#" then
    let _ ← takeWhile isVisible

/-- Takes what may stand behind a statement on its line, and the line end. -/
def restOfLine : Reading Unit := do
  spaces
  comment
  if (← peek).isSome then
    if !(← lineBreak) then fail "expected the end of the line"

/-- Takes blanks, line ends and comments; `fuel` bounds the number of lines. -/
def gap : (fuel : Nat) → Reading Unit
  | 0 => spaces
  | fuel + 1 => do
    spaces
    comment
    if ← lineBreak then gap fuel

/-- Takes blanks, line ends and comments. -/
def blanks : Reading Unit := do
  gap (← get).length

end Reading

end Ignition.Toml
