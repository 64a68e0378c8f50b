/-!
# Places in a YAML text

A cursor is a place in a text: what is left to read, and how much was read, in characters and as line and column. Columns matter
in this format, since the depth of a block is a column. A line ends with a carriage return, a line feed, both, or one of three
further line separators; what a scalar keeps of a line end is a line feed, except for two separators that it keeps as they are.
-/

namespace Ignition.Yaml

/-- What is wrong with the form of a text, and where. -/
structure SyntaxError where
  /-- What is wrong. -/
  problem : String
  /-- The line, counted from one. -/
  line : Nat
  /-- The column, counted from one. -/
  column : Nat
deriving DecidableEq, Repr, Inhabited

/-- A place in a text, with what is left to read from it. -/
structure Cursor where
  /-- What is left to read. -/
  rest : List Char
  /-- How many characters were read. -/
  index : Nat := 0
  /-- How many lines were read. -/
  line : Nat := 0
  /-- How many characters of this line were read. -/
  column : Nat := 0
deriving Repr, Inhabited

/-- Whether a character ends a line. -/
def isBreak (c : Char) : Bool :=
  c = '\r' || c = '\n' || c = '\u0085' || c = '\u2028' || c = '\u2029'

/-- Whether a character is a space or a tab. -/
def isSpace (c : Char) : Bool :=
  c = ' ' || c = '\t'

/-- Whether a text ends here, or a line does, or a space or tab follows. -/
def atGap : List Char → Bool
  | [] => true
  | c :: _ => isSpace c || isBreak c

/-- Whether a character may be part of an anchor or of the handle of a tag. -/
def isWordChar (c : Char) : Bool :=
  ('a' ≤ c && c ≤ 'z') || ('A' ≤ c && c ≤ 'Z') || ('0' ≤ c && c ≤ '9') || c = '_' || c = '-'

/-- Whether a text may hold a character at all. -/
def isAllowed (c : Char) : Bool :=
  c = '\t' || c = '\n' || c = '\r' || (' ' ≤ c && c ≤ '~') || c = '\u0085' || ('\u00a0' ≤ c && c ≤ '\ufffd') ||
    0x10000 ≤ c.toNat

namespace Cursor

/-- A failure at this place. -/
def fail {α : Type} (cursor : Cursor) (problem : String) : Except SyntaxError α :=
  .error { problem, line := cursor.line + 1, column := cursor.column + 1 }

/-- The next character. -/
def peek? (cursor : Cursor) : Option Char :=
  cursor.rest.head?

/-- Whether the next character is the one given. -/
def nextIs (cursor : Cursor) (c : Char) : Bool :=
  cursor.rest.head? = some c

/-- Whether the next character is a space or a tab. -/
def atSpace (cursor : Cursor) : Bool :=
  cursor.rest.head?.any isSpace

/-- Whether the next character ends a line. -/
def atBreak (cursor : Cursor) : Bool :=
  cursor.rest.head?.any isBreak

/-- Whether the text or the line ends here. -/
def atLineEnd (cursor : Cursor) : Bool :=
  cursor.rest.head?.all isBreak

/-- Whether a character that is one of some stands next. -/
def nextIn (cursor : Cursor) (chars : String) : Bool :=
  cursor.rest.head?.any chars.toList.contains

/-- The place some characters further on the same line. -/
def advance (cursor : Cursor) (count : Nat) : Cursor :=
  { cursor with
    rest := cursor.rest.drop count
    index := cursor.index + count
    column := cursor.column + count }

/-- The characters up to the first that does not satisfy a test, and the place of that one. -/
def span (cursor : Cursor) (test : Char → Bool) : List Char × Cursor :=
  let taken := cursor.rest.takeWhile test
  (taken, cursor.advance taken.length)

/-- The place of the first character that does not satisfy a test. -/
def skip (cursor : Cursor) (test : Char → Bool) : Cursor :=
  (cursor.span test).2

/-- The start of the next line, if a line ends here, with what a scalar keeps of the line end. -/
def break? (cursor : Cursor) : Option (Char × Cursor) :=
  match cursor.rest with
  | '\r' :: '\n' :: rest => some ('\n', { rest, index := cursor.index + 2, line := cursor.line + 1, column := 0 })
  | c :: rest =>
    if isBreak c then
      some (if c = '\u2028' || c = '\u2029' then c else '\n',
        { rest, index := cursor.index + 1, line := cursor.line + 1, column := 0 })
    else none
  | [] => none

/-- Whether a line begins here with three of one character, which is a dash or a dot, and a gap behind them. -/
def atMarker (cursor : Cursor) (c : Char) : Bool :=
  cursor.column = 0 &&
    match cursor.rest with
    | a :: b :: d :: rest => a = c && b = c && d = c && atGap rest
    | _ => false

/-- Whether a document begins or ends here by a marker. -/
def atDocumentMarker (cursor : Cursor) : Bool :=
  cursor.atMarker '-' || cursor.atMarker '.'

end Cursor

end Ignition.Yaml
