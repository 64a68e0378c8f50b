import Ignition.Config.Entries
import Ignition.Text.Blank
import Ignition.Text.Integer

/-!
# Properties files

A properties file is a sequence of *logical lines*. A line that ends with an odd number of backslashes is continued: the last of
them is dropped, and the next line is put behind it without its leading white space. A line that begins a logical line is skipped
if it is blank or a comment, which begins with `#` or `!`; a line that continues one is taken whatever it holds.

A logical line is cut into a key and a value at its first separator that no backslash escapes: an equals sign, a colon, or one of
space, tab and form feed. Those three blanks may surround the separator, of which there may be one besides them. In either part
a backslash and the character behind it stand for one character; `\u` needs the number of a character in four hexadecimal
digits. The first of these digits may also be a plus sign, which does not count.
-/

namespace Ignition.Properties

/-- What can be wrong with a properties file. -/
inductive Error where
  /-- The letter `u` behind a backslash is not followed by the number of a character. -/
  | malformedUnicodeEscape (line : Nat)
deriving DecidableEq, Repr, Inhabited

/-- The error in words. -/
def Error.message : Error → String
  | malformedUnicodeEscape line => "malformed \\uxxxx escape on line " ++ Text.decimal line

/-- A logical line and the number of the line it begins on, counted from one. -/
structure LogicalLine where
  /-- The number of its first line. -/
  number : Nat
  /-- Its text. -/
  text : List Char
deriving DecidableEq, Repr

/-- Whether a line without its leading white space is continued on the next one. -/
def isContinued (line : List Char) : Bool :=
  (line.reverse.takeWhile (· = '\\')).length % 2 = 1

/-- Whether a line without its leading white space holds nothing: it is empty or a comment. -/
def isSkipped : List Char → Bool
  | [] => true
  | c :: _ => c = '#' || c = '!'

/-- The logical lines of some lines, the first of which has the number given; `pending` is the logical line that they continue. -/
def logicalLines (pending : Option LogicalLine) (number : Nat) : List (List Char) → List LogicalLine
  | [] => pending.toList
  | line :: rest =>
    let line := Text.trimLeft line
    match pending with
    | none =>
      if isSkipped line then logicalLines none (number + 1) rest
      else if isContinued line then logicalLines (some ⟨number, line.dropLast⟩) (number + 1) rest
      else ⟨number, line⟩ :: logicalLines none (number + 1) rest
    | some begun =>
      if isContinued line then
        logicalLines (some { begun with text := begun.text ++ line.dropLast }) (number + 1) rest
      else { begun with text := begun.text ++ line } :: logicalLines none (number + 1) rest

/-- Whether a character is one of the blanks around a separator. -/
def isPadding (c : Char) : Bool :=
  c = ' ' || c = '\t' || c = '\x0c'

/-- Whether a character ends a key. -/
def isSeparator (c : Char) : Bool :=
  c = '=' || c = ':' || isPadding c

/-- A logical line cut before the first separator that is not escaped. -/
def splitKey : List Char → List Char × List Char
  | [] => ([], [])
  | '\\' :: c :: rest => let (key, behind) := splitKey rest; ('\\' :: c :: key, behind)
  | c :: rest =>
    if isSeparator c then ([], c :: rest)
    else let (key, behind) := splitKey rest; (c :: key, behind)

/-- What stands behind a separator and the blanks around it. -/
def dropSeparator (text : List Char) : List Char :=
  match text.dropWhile isPadding with
  | [] => []
  | c :: rest => (if c = '=' || c = ':' then rest else c :: rest).dropWhile isPadding

/-- The character whose number four characters write. -/
def characterOf? (digits : List Char) : Option Char :=
  let number := match digits with
    | '+' :: rest => Text.natural? 16 rest
    | digits => Text.natural? 16 digits
  number.bind fun n => if n.isValidChar then some (Char.ofNat n) else none

/-- The character that a backslash and a letter stand for. -/
def escaped (c : Char) : Char :=
  if c = 't' then '\t' else if c = 'n' then '\n' else if c = 'r' then '\r' else if c = 'f' then '\x0c' else c

/-- A text without its escapes; `none` if one is malformed. A backslash at the end stands for nothing. -/
def unescape? : List Char → Option (List Char)
  | [] => some []
  | ['\\'] => some []
  | '\\' :: 'u' :: a :: b :: c :: d :: rest => do
    let character ← characterOf? [a, b, c, d]
    return character :: (← unescape? rest)
  | '\\' :: 'u' :: _ => none
  | '\\' :: c :: rest => do return escaped c :: (← unescape? rest)
  | c :: rest => do return c :: (← unescape? rest)

/-- The entry on a logical line. -/
def LogicalLine.entry (line : LogicalLine) : Except Error (String × String) :=
  let (key, behind) := splitKey line.text
  match unescape? key, unescape? (dropSeparator behind) with
  | some key, some value => .ok (String.ofList key, String.ofList value)
  | _, _ => .error (.malformedUnicodeEscape line.number)

/-- The entries of a properties file. -/
def parse (text : String) : Except Error Entries :=
  (logicalLines none 1 (Text.lines text.toList)).mapM LogicalLine.entry

end Ignition.Properties
