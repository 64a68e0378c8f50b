import Ignition.Log.Event

/-!
# Log lines

An event as one line of a log. In the one format the line is an object of named values, the fields of the event beside its level, its
message and its target; in the other it is text for a reader.
-/

namespace Ignition

/-- A character as it stands between the quotes of an object. -/
def jsonChar (c : Char) : List Char :=
  if c = '"' then ['\\', '"']
  else if c = '\\' then ['\\', '\\']
  else if c = '\n' then ['\\', 'n']
  else if c = '\r' then ['\\', 'r']
  else if c = '\t' then ['\\', 't']
  else if c = '\x08' then ['\\', 'b']
  else if c = '\x0c' then ['\\', 'f']
  else if c < ' ' then "\\u".toList ++ (Text.fixedHex 4 c.toNat).toList
  else [c]

/-- A text as a value of an object. -/
def jsonText (text : String) : String :=
  "\"" ++ String.ofList (text.toList.flatMap jsonChar) ++ "\""

/-- The value of a field as a value of an object. -/
def LogValue.json : LogValue → String
  | .text value => jsonText value
  | value => value.render

/-- The event as an object on one line. -/
def LogEvent.jsonLine (event : LogEvent) : String :=
  let named := [("level", LogValue.text event.level.text), ("message", .text event.message)] ++ event.fields ++
    [("target", .text event.target)]
  "\x7b" ++ Text.commaJoin (named.map fun (name, value) => jsonText name ++ ":" ++ value.json) ++ "\x7d"

/-- The event as a line of text. -/
def LogEvent.compactLine (event : LogEvent) : String :=
  event.level.text ++ " " ++ event.target ++ ": " ++ event.message ++
    String.join (event.fields.map fun (name, value) => " " ++ name ++ "=" ++ value.render)

/-- The event as a line of a log. -/
def LogFormat.line : LogFormat → LogEvent → String
  | .json, event => event.jsonLine
  | .compact, event => event.compactLine

end Ignition
