import Ignition.Format.Toml.Reading
import Ignition.Text.Integer

/-!
# Texts and keys in TOML

A text stands between quotes. Double quotes allow escapes, single quotes do not; one quote on either side keeps the text on one
line, three let it span lines. A line end right behind three opening quotes does not count, every other one counts as a line feed,
and a backslash at the end of a line takes away all blanks and line ends up to the next character. Up to two quotes may stand right
before the three closing ones.

A key is a word of letters, digits, underscores and dashes or a text on one line, and a dotted key is several of them with dots
between them.
-/

namespace Ignition.Toml

/-- How a text is quoted. -/
structure Quotes where
  /-- The quote. -/
  mark : Char
  /-- Whether there are three of them on either side, so that the text may span lines. -/
  isTriple : Bool
deriving DecidableEq, Repr

/-- Whether a backslash begins an escape. -/
def Quotes.hasEscapes (quotes : Quotes) : Bool :=
  quotes.mark = '"'

/-- The character that a letter behind a backslash stands for. -/
def escaped? (c : Char) : Option Char :=
  if c = 'b' then some '\x08'
  else if c = 't' then some '\t'
  else if c = 'n' then some '\n'
  else if c = 'f' then some '\x0c'
  else if c = 'r' then some '\r'
  else if c = '"' then some '"'
  else if c = '\\' then some '\\'
  else none

/-- The character whose number some hexadecimal digits write. -/
def characterOf? (digits : List Char) : Option Char :=
  (Text.natural? 16 digits).bind fun n => if n.isValidChar then some (Char.ofNat n) else none

/-- Whether nothing but blanks stands before the next line end. -/
def atBlankLineEnd (text : List Char) : Bool :=
  match text.dropWhile isSpace with
  | '\n' :: _ => true
  | '\r' :: '\n' :: _ => true
  | _ => false

/-- Puts a character in front of a text that was read. -/
def withChar (c : Char) : Option (List Char × List Char) → Option (List Char × List Char) :=
  Option.map fun (text, behind) => (c :: text, behind)

/-- The text up to the closing quotes, and what stands behind them; while `skipping`, blanks and line ends do not count. -/
def Quotes.body (quotes : Quotes) : (skipping : Bool) → List Char → Option (List Char × List Char)
  | _, [] => none
  | skipping, '\r' :: '\n' :: rest =>
    if !quotes.isTriple then none
    else if skipping then quotes.body true rest
    else withChar '\n' (quotes.body false rest)
  | skipping, '\\' :: 'u' :: a :: b :: c :: d :: rest =>
    if quotes.hasEscapes then
      (characterOf? [a, b, c, d]).bind fun character => withChar character (quotes.body false rest)
    else withChar '\\' (quotes.body skipping ('u' :: a :: b :: c :: d :: rest))
  | skipping, '\\' :: rest =>
    if !quotes.hasEscapes then withChar '\\' (quotes.body skipping rest)
    else if quotes.isTriple && atBlankLineEnd rest then quotes.body true rest
    else match rest with
      | 'U' :: a :: b :: c :: d :: e :: f :: g :: h :: rest =>
        (characterOf? [a, b, c, d, e, f, g, h]).bind fun character => withChar character (quotes.body false rest)
      | c :: rest => (escaped? c).bind fun character => withChar character (quotes.body false rest)
      | [] => none
  | skipping, c :: rest =>
    if quotes.isTriple && c = '\n' then
      if skipping then quotes.body true rest else withChar '\n' (quotes.body false rest)
    else if skipping && isSpace c then quotes.body true rest
    else if c = quotes.mark then
      if !quotes.isTriple then some ([], rest)
      else
        let more := (rest.takeWhile (· = c)).length
        if more < 2 then withChar c (quotes.body false rest)
        else
          let inside := min (more - 2) 2
          some (List.replicate inside c, rest.drop (inside + 2))
    else if isVisible c then withChar c (quotes.body false rest)
    else none

namespace Reading

/-- A text without a line end right at its beginning. -/
def dropLineBreak : List Char → List Char
  | '\n' :: rest => rest
  | '\r' :: '\n' :: rest => rest
  | text => text

/-- Reads the text behind its opening quotes. -/
def textWithin (quotes : Quotes) : Reading String := fun text =>
  match quotes.body false (if quotes.isTriple then dropLineBreak text else text) with
  | some (body, behind) => .ok (String.ofList body, behind)
  | none => .error { problem := "invalid string", left := text.length }

/-- Reads a text on one line. -/
def textLine (mark : Char) : Reading String := do
  expect (String.singleton mark)
  textWithin { mark, isTriple := false }

/-- Reads a text, which may span lines if three quotes open it. -/
def text (mark : Char) : Reading String := do
  if ← takes (String.ofList [mark, mark, mark]) then textWithin { mark, isTriple := true }
  else textLine mark

/-- Whether a character may stand in a key without quotes. -/
def isKeyChar (c : Char) : Bool :=
  ('a' ≤ c && c ≤ 'z') || ('A' ≤ c && c ≤ 'Z') || Text.isDigit c || c = '_' || c = '-'

/-- Reads a key without dots. -/
def simpleKey : Reading String := do
  match ← peek with
  | some '"' => textLine '"'
  | some '\'' => textLine '\''
  | _ =>
    let name ← takeWhile isKeyChar
    if name.isEmpty then fail "expected a key"
    return String.ofList name

/-- How many names a dotted key may have, and one more than how deeply values may be nested. -/
def depthLimit : Nat := 80

/-- Reads the names of a dotted key, of which there may be at most `left`. -/
def keyNames : (left : Nat) → Reading (List String)
  | 0 => fail "the key has too many names"
  | left + 1 => do
    spaces
    let name ← simpleKey
    spaces
    if ← takes "." then return name :: (← keyNames left)
    return [name]

/-- Reads a dotted key, as the way to the last name and that name. -/
def key : Reading (List String × String) := do
  let names ← keyNames (depthLimit - 1)
  return (names.dropLast, names.getLast?.getD "")

end Reading

end Ignition.Toml
