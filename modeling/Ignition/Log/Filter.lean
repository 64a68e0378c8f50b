import Ignition.Log.Event
import Ignition.Text.Alphanumeric
import Ignition.Text.Blank

/-!
# Log filters

A filter is a list of directives with commas between them. A directive names a level, or a target with a level behind an equals sign;
a target without a level stands for all levels. A level is a word in any case or a number from zero, which is off, to five. Which
events a filter lets through is decided, for each event, by the directive with the longest target that the target of the event begins
with; a directive without a target is one whose target is empty. Of two directives with the same target the later one counts.

A directive may also name, in brackets, a span of time and its fields. Such a directive lets events through only inside that span, so
it lets none of the events of this library through, but it has to be well-formed.
-/

namespace Ignition

/-- What is wrong with a filter. -/
inductive FilterError where
  /-- A directive has not the form of one. -/
  | malformed
  /-- A level is none. -/
  | unknownLevel
deriving DecidableEq, Repr, Inhabited

/-- The error in words. -/
def FilterError.message : FilterError → String
  | malformed => "invalid filter directive"
  | unknownLevel =>
    "error parsing level filter: expected one of \"off\", \"error\", \"warn\", \"info\", \"debug\", \"trace\", or a number 0-5"

/-- What a filter says about targets that begin with a text. -/
structure Directive where
  /-- How the targets begin. -/
  target : String
  /-- The greatest rank of a level that is let through; zero lets nothing through. -/
  greatest : Nat
  /-- Whether the directive counts inside a span only. -/
  isLocal : Bool := false
deriving DecidableEq, Repr, Inhabited

/-- Which events a log shows. -/
structure LogFilter where
  /-- The directives in order. -/
  directives : List Directive := []
deriving DecidableEq, Repr, Inhabited

namespace LogFilter

/-- The words for the ranks of levels from zero on. -/
def levelWords : List String := ["off", "error", "warn", "info", "debug", "trace"]

/-- The rank that a word or a number stands for. -/
def rank? (word : String) : Option Nat :=
  let digits := match word.toList with
    | '+' :: rest => rest
    | text => text
  match Text.natural? 10 digits with
  | some n => if n < levelWords.length then some n else none
  | none => levelWords.findIdx? (Text.sameWord · word)

/-- The rank of a level behind an equals sign; no level means all of them. -/
def rankBehind (word : String) : Except FilterError Nat :=
  if word.isEmpty then .ok LogLevel.trace.rank
  else match rank? word with
    | some n => .ok n
    | none => .error .unknownLevel

/-- Whether a directive may begin with a character. -/
def isFirst (c : Char) : Bool :=
  c = '-' || c = ':' || c = '_' || Text.isAlphanumeric c

/-- What stands behind the description of a span, up to the closing bracket; the fields stand in braces and none is empty. -/
def behindSpan (span : List Char) : Except FilterError (List Char) :=
  let name := span.takeWhile fun c => c ≠ ']' && c ≠ '{'
  match span.drop name.length with
  | ']' :: rest => .ok rest
  | '{' :: rest =>
    match Text.cut '}' rest with
    | some (fields, ']' :: behind) =>
      if (Text.split ',' fields).any (·.isEmpty) then .error .malformed else .ok behind
    | _ => .error .malformed
  | _ => .error .malformed

/-- The directive that a text writes. Blanks around the text count as parts of it, but not for the question with which character
it begins; a level has no blanks around it. -/
def directive (text : List Char) : Except FilterError Directive :=
  let isIndented := Text.trimLeft text ≠ text
  match Text.trim text with
  | [] => .error .malformed
  | c :: rest =>
    let local? (target : List Char) (span : List Char) : Except FilterError Directive := do
      match ← behindSpan span with
      | [] => return { target := String.ofList target, greatest := LogLevel.trace.rank, isLocal := true }
      | '=' :: level =>
        if isIndented then .error .unknownLevel
        else return { target := String.ofList target, greatest := ← rankBehind (String.ofList level), isLocal := true }
      | _ => .error .malformed
    if c = '[' then local? [] rest
    else if !isFirst c then .error .malformed
    else
      let target := text.takeWhile fun c => c ≠ '=' && c ≠ '['
      match text.drop target.length with
      | '=' :: level =>
        if isIndented then .error .unknownLevel
        else do return { target := String.ofList target, greatest := ← rankBehind (String.ofList level) }
      | _ :: span => local? target span
      | [] =>
        match rank? (String.ofList text) with
        | some greatest => .ok { target := "", greatest }
        | none => .ok { target := String.ofList text, greatest := LogLevel.trace.rank }

/-- The filter that a text writes. Empty directives do not count. -/
def parse (text : String) : Except FilterError LogFilter := do
  return { directives := ← ((Text.split ',' text.toList).filter (!·.isEmpty)).mapM directive }

/-- The directive that decides about a target. -/
def decisive? (filter : LogFilter) (target : String) : Option Directive :=
  filter.directives.foldl (fun best next =>
    if next.isLocal || !Text.startsWith next.target target then best
    else match best with
      | some old => if old.target.length ≤ next.target.length then some next else best
      | none => some next) none

/-- Whether the filter lets an event through. -/
def shows (filter : LogFilter) (event : LogEvent) : Bool :=
  match filter.decisive? event.target with
  | some directive => event.level.rank ≤ directive.greatest
  | none => false

end LogFilter

end Ignition
