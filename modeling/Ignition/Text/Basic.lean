/-!
# Pieces of text

Everything that the library reads it reads as a list of characters, from the left. This module holds the few operations on
such lists that several readers share: to cut a text at a character, to take a known beginning off it, to look for one text
inside another, and to compare words without regard to the case of ASCII letters. Each has a variant on strings; the string
variant goes through the list of characters, so that a statement about the list is a statement about the string.
-/

namespace Ignition.Text

/-- Cuts a text at the first occurrence of a character, which belongs to neither part; `none` if it does not occur. -/
def cut (c : Char) : List Char → Option (List Char × List Char)
  | [] => none
  | d :: rest =>
    if d = c then some ([], rest)
    else (cut c rest).map fun (before, behind) => (d :: before, behind)

/-- Cuts a text at the last occurrence of a character. -/
def cutLast (c : Char) (text : List Char) : Option (List Char × List Char) :=
  (cut c text.reverse).map fun (behind, before) => (before.reverse, behind.reverse)

/-- The pieces of a text between the occurrences of a separator; there is always one piece more than separators. -/
def split (c : Char) : List Char → List (List Char)
  | [] => [[]]
  | d :: rest =>
    if d = c then [] :: split c rest
    else match split c rest with
      | [] => [[d]]
      | piece :: pieces => (d :: piece) :: pieces

/-- Whether one text occurs in another as a run of neighbouring characters. -/
def occursIn (needle : List Char) : List Char → Bool
  | [] => needle.isEmpty
  | c :: rest => needle.isPrefixOf (c :: rest) || occursIn needle rest

/-- Removes a known beginning; `none` if the text does not begin with it. -/
def dropStart? (start text : String) : Option String :=
  (start.toList.isPrefixOf? text.toList).map String.ofList

/-- Removes a known ending; `none` if the text does not end with it. -/
def dropEnd? (ending text : String) : Option String :=
  (ending.toList.reverse.isPrefixOf? text.toList.reverse).map fun rest => String.ofList rest.reverse

/-- Whether a text begins with another. -/
def startsWith (start text : String) : Bool :=
  start.toList.isPrefixOf text.toList

/-- Whether a text ends with another. -/
def endsWith (ending text : String) : Bool :=
  ending.toList.reverse.isPrefixOf text.toList.reverse

/-- Whether a text occurs in another. -/
def contains (needle text : String) : Bool :=
  occursIn needle.toList text.toList

/-- `cut` on strings. -/
def cutString (c : Char) (text : String) : Option (String × String) :=
  (cut c text.toList).map fun (before, behind) => (String.ofList before, String.ofList behind)

/-- Whether two words are equal up to the case of ASCII letters; letters of other alphabets have to be equal as they stand. -/
def sameWord (a b : String) : Bool :=
  a.toList.map Char.toLower == b.toList.map Char.toLower

/-- Words that are joined with a comma between them. -/
def commaJoin (words : List String) : String :=
  ",".intercalate words

end Ignition.Text
