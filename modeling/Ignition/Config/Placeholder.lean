import Ignition.Config.Environment
import Ignition.Text.Basic

/-!
# Placeholders

A value may contain placeholders: a dollar sign and an opening brace, a body, and the closing brace that matches. The body names a
key, or a key and a fallback with a colon between them. A placeholder stands for the value of its key in an environment, or for
its fallback if the environment has no value. Bodies, values and fallbacks are expanded in their turn, the body before it is cut
at the colon. An opening that is never closed is ordinary text, and so is everything behind it.

A value that needs its own key is an error: the keys whose values are being expanded are kept, and a placeholder that names one
of them is circular. This does not bound the expansion, because expanded text can form new placeholders and a fallback made of
them is expanded again; so a limit on the depth of nested expansions does, which is the environment's.
-/

namespace Ignition

/-- Why a text has no expansion. The text named is the whole text that was to be expanded. -/
inductive PlaceholderError where
  /-- A key has no value and its placeholder no fallback. -/
  | unresolvable (key text : String)
  /-- The value of a key needs the key itself. -/
  | circular (key text : String)
  /-- The expansions are nested too deeply. -/
  | tooDeep (text : String)
deriving DecidableEq, Repr, Inhabited

namespace Placeholder

/-- The two characters that open a placeholder. -/
def opening : List Char := ['$', '{']

/-- Whether a text begins with the opening of a placeholder. -/
def opens : List Char → Bool
  | '$' :: '{' :: _ => true
  | _ => false

/-- The text up to the closing brace that matches, and the text behind that brace; `depth` counts the openings that wait for
theirs. -/
def closing? (depth : Nat) : List Char → Option (List Char × List Char)
  | [] => none
  | c :: rest =>
    if c = '}' then
      match depth with
      | 0 => some ([], rest)
      | depth + 1 => (closing? depth rest).map fun (body, behind) => (c :: body, behind)
    else
      (closing? (if opens (c :: rest) then depth + 1 else depth) rest).map fun (body, behind) => (c :: body, behind)

/-- A part of a text. -/
inductive Piece where
  /-- Text that stands for itself. -/
  | literal (text : List Char)
  /-- A placeholder with its body. -/
  | placeholder (body : List Char)
deriving DecidableEq, Repr, Inhabited

/-- The parts of a text, each character outside placeholders by itself; `fuel` bounds their number, and the length of the text is
always enough. -/
def piecesWithin : (fuel : Nat) → List Char → List Piece
  | 0, text => [.literal text]
  | _, [] => []
  | fuel + 1, c :: rest =>
    if opens (c :: rest) then
      match closing? 0 (rest.drop 1) with
      | some (body, behind) => .placeholder body :: piecesWithin fuel behind
      | none => [.literal (c :: rest)]
    else .literal [c] :: piecesWithin fuel rest

/-- The parts of a text. -/
def pieces (text : List Char) : List Piece :=
  piecesWithin text.length text

/-- How many characters of a text a part takes. -/
def Piece.width : Piece → Nat
  | .literal text => text.length
  | .placeholder body => body.length + 3

/-- The number of characters that parts of a text take together. -/
def extent : List Piece → Nat
  | [] => 0
  | piece :: rest => piece.width + extent rest

/-- The parts of a text, each with the number of the characters behind it. -/
def numbered : List Piece → List (Nat × Piece)
  | [] => []
  | piece :: rest => (extent rest, piece) :: numbered rest

/-- The key of a body and its fallback. -/
def keyAndFallback (body : List Char) : String × Option (List Char) :=
  match Text.cut ':' body with
  | some (key, fallback) => (String.ofList key, some fallback)
  | none => (String.ofList body, none)

end Placeholder

namespace Environment

open Placeholder

/-- The expansion of a text, with at most `depth` nested expansions; `visiting` are the keys whose values are being expanded and
`whole` is the text that an error names. Whatever is nested in a placeholder has draws of its own. -/
def expandWithin (whole : String) : (depth : Nat) → (env : Environment) → (visiting : List String) → List Char →
    Except PlaceholderError (List Char)
  | 0, _, _, _ => .error (.tooDeep whole)
  | depth + 1, env, visiting, text => do
    let parts ← (numbered (pieces text)).mapM fun
      | (_, .literal part) => pure part
      | (behind, .placeholder body) => do
        let (key, fallback) := keyAndFallback (← (env.toward (.body behind)).expandWithin whole depth visiting body)
        if visiting.contains key then throw (.circular key whole)
        match (env.toward (.key behind)).get? key, fallback with
        | some value, _ => (env.toward (.value behind)).expandWithin whole depth (key :: visiting) value.toList
        | none, some fallback => (env.toward (.fallback behind)).expandWithin whole depth visiting fallback
        | none, none => throw (.unresolvable key whole)
    pure parts.flatten

/-- A text with its placeholders expanded. -/
def expand (env : Environment) (text : String) : Except PlaceholderError String :=
  (env.expandWithin text env.nesting [] text.toList).map String.ofList

end Environment

end Ignition
