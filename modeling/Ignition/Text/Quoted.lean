import Ignition.Text.Integer
import Ignition.Text.Unprintable

/-!
# Texts between quotes

A list of names in a log line has to be readable whatever the names are, so each is written between double quotes, and inside
them a quote, a backslash and every character that would not show is written as an escape: the common controls by a letter, all
others by their number in braces. Brackets go around a list, and an optional text is marked as present or absent.
-/

namespace Ignition.Text

/-- A character as it stands between quotes. -/
def quotedChar (c : Char) : List Char :=
  if c = '\x00' then ['\\', '0']
  else if c = '\t' then ['\\', 't']
  else if c = '\r' then ['\\', 'r']
  else if c = '\n' then ['\\', 'n']
  else if c = '\\' then ['\\', '\\']
  else if c = '"' then ['\\', '"']
  else if isExtending c || isUnprintable c then "\\u\x7b".toList ++ (hexadecimal c.toNat).toList ++ "\x7d".toList
  else [c]

/-- A text between double quotes. -/
def quoted (text : String) : String :=
  "\"" ++ String.ofList (text.toList.flatMap quotedChar) ++ "\""

/-- A list of texts, each between quotes. -/
def quotedList (texts : List String) : String :=
  "[" ++ ", ".intercalate (texts.map quoted) ++ "]"

/-- An optional text: the quoted text, marked as present, or the word for its absence. -/
def quotedOption : Option String → String
  | none => "None"
  | some text => "Some(" ++ quoted text ++ ")"

end Ignition.Text
