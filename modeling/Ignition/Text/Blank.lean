import Ignition.Text.Basic

/-!
# White space

White space is a property of characters that the Unicode standard lists: tab to carriage return, the space, the next-line
control, the non-breaking spaces, the typographic spaces and the two separators. A reader that trims, trims by this list; the
two formats whose own rules name fewer characters say so where they trim.
-/

namespace Ignition.Text

/-- Whether a character has the Unicode property White_Space. -/
def isBlank (c : Char) : Bool :=
  ('\t' ≤ c && c ≤ '\r') || c = ' ' || c = '\u0085' || c = '\u00a0' || c = '\u1680' ||
    ('\u2000' ≤ c && c ≤ '\u200a') || c = '\u2028' || c = '\u2029' || c = '\u202f' || c = '\u205f' || c = '\u3000'

/-- A text without the white space at its beginning. -/
def trimLeft (text : List Char) : List Char :=
  text.dropWhile isBlank

/-- A text without the white space at either end. -/
def trim (text : List Char) : List Char :=
  (trimLeft (trimLeft text).reverse).reverse

/-- `trim` on strings. -/
def trimString (text : String) : String :=
  String.ofList (trim text.toList)

/-- The entries of a comma-separated list, trimmed, without the empty ones. -/
def listEntries (text : String) : List String :=
  (((split ',' text.toList).map trim).filter (!·.isEmpty)).map String.ofList

/-- The lines of a text. A line ends with a line feed, and a carriage return right before that line feed belongs to the line
end; a text that ends with a line feed has no empty line behind it. -/
def lines (text : List Char) : List (List Char) :=
  let pieces := split '\n' text
  let ended := pieces.dropLast.map fun line =>
    if line.getLast? = some '\r' then line.dropLast else line
  match pieces.getLast? with
  | some (c :: rest) => ended ++ [c :: rest]
  | _ => ended

end Ignition.Text
