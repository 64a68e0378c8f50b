import Ignition.Format.Yaml.Cursor
import Ignition.Text.Integer

/-!
# YAML tokens

A text is read as a sequence of tokens. Most are indicators, words and scalars as they stand; the start and the end of a block are
tokens too, and are read off columns: a block begins where an entry stands further to the right than the block around it, and ends
where something stands further to the left.

That a word is a key of a mapping shows only at the colon behind it. So wherever a key may stand, the place is noted; if a colon
follows on the same line, at most 1024 characters on, the token for a key (and perhaps the start of a block) is put in at that
place. Where a block mapping needs a key, a noted place without a colon is an error.

Tokens in front of an error can be used, but only up to the first place that may still turn out to be a key.
-/

namespace Ignition.Yaml

/-- A token of a text. -/
inductive Token where
  /-- The end of the text. -/
  | streamEnd
  /-- A directive with the version of the format. -/
  | version (major minor : Nat)
  /-- A directive that gives the handle of tags a meaning. -/
  | handle (handle meaning : String)
  /-- The marker in front of a document. -/
  | documentStart
  /-- The marker behind a document. -/
  | documentEnd
  /-- The start of a block sequence. -/
  | blockSequenceStart
  /-- The start of a block mapping. -/
  | blockMappingStart
  /-- The end of a block. -/
  | blockEnd
  /-- An opening bracket. -/
  | flowSequenceStart
  /-- A closing bracket. -/
  | flowSequenceEnd
  /-- An opening brace. -/
  | flowMappingStart
  /-- A closing brace. -/
  | flowMappingEnd
  /-- The dash in front of an entry of a block sequence. -/
  | blockEntry
  /-- The comma between entries. -/
  | flowEntry
  /-- The start of a key. -/
  | key
  /-- The colon in front of a value. -/
  | value
  /-- A reference to an anchor. -/
  | alias (name : String)
  /-- A name for what follows. -/
  | anchor (name : String)
  /-- A tag of what follows, as a handle and what stands behind it. -/
  | tag (handle suffix : String)
  /-- A scalar; a plain one stands without quotes and is no block. -/
  | scalar (text : String) (isPlain : Bool)
deriving DecidableEq, Repr, Inhabited

/-- A token with the place where it begins. -/
structure PlacedToken where
  /-- The token. -/
  token : Token
  /-- Its line, counted from zero. -/
  line : Nat
  /-- Its column, counted from zero. -/
  column : Nat
deriving DecidableEq, Repr, Inhabited

/-! ## Scalars -/

/-- White space inside a scalar that is not known yet to belong to it. -/
structure Gap where
  /-- Whether it contains a line end. -/
  broken : Bool := false
  /-- The spaces and tabs, as long as there is no line end. -/
  spaces : List Char := []
  /-- The first line end. -/
  firstBreak : List Char := []
  /-- The further line ends. -/
  moreBreaks : List Char := []
deriving Repr, Inhabited

/-- What a gap adds to a scalar that goes on behind it: a single line end becomes a space, and of several the first is dropped. -/
def Gap.text (gap : Gap) : List Char :=
  if !gap.broken then gap.spaces
  else if gap.firstBreak = ['\n'] then (if gap.moreBreaks.isEmpty then [' '] else gap.moreBreaks)
  else gap.firstBreak ++ gap.moreBreaks

/-- The white space from a place on, added to a gap; `tabLimit` is the column that no tab at the beginning of a line may stand in
front of. -/
def Gap.scan (tabLimit : Option Int) : (fuel : Nat) → Gap → Cursor → Except SyntaxError (Gap × Cursor)
  | 0, gap, cursor => .ok (gap, cursor)
  | fuel + 1, gap, cursor =>
    if cursor.atSpace then
      if gap.broken && cursor.nextIs '\t' && tabLimit.any (fun limit => Int.ofNat cursor.column < limit) then
        cursor.fail "found a tab character that violates indentation"
      else
        let gap := if gap.broken then gap else { gap with spaces := gap.spaces ++ cursor.rest.take 1 }
        Gap.scan tabLimit fuel gap (cursor.advance 1)
    else match cursor.break? with
      | some (c, next) =>
        let gap : Gap := if gap.broken then { gap with moreBreaks := gap.moreBreaks ++ [c] }
          else { broken := true, firstBreak := [c] }
        Gap.scan tabLimit fuel gap next
      | none => .ok (gap, cursor)

/-- The characters of a plain scalar up to a gap or an indicator that ends it; `none` for a colon in front of another indicator
inside brackets. -/
def plainRun (inFlow : Bool) : List Char → Option (List Char)
  | [] => some []
  | c :: rest =>
    if isSpace c || isBreak c then some []
    else if inFlow && c = ':' && rest.head?.any ",?[]\x7b\x7d".toList.contains then none
    else if (c = ':' && atGap rest) || (inFlow && ",[]\x7b\x7d".toList.contains c) then some []
    else (plainRun inFlow rest).map (c :: ·)

/-- Reads a plain scalar: its text backwards, the gap behind it, and the place behind that. -/
def scanPlain (inFlow : Bool) (indent : Int) :
    (fuel : Nat) → (text : List Char) → Gap → Cursor → Except SyntaxError (List Char × Gap × Cursor)
  | 0, text, gap, cursor => .ok (text, gap, cursor)
  | fuel + 1, text, gap, cursor =>
    if cursor.atDocumentMarker || cursor.nextIs '#' then .ok (text, gap, cursor)
    else match plainRun inFlow cursor.rest with
      | none => cursor.fail "found unexpected ':'"
      | some run => do
        let (text, gap) := if run.isEmpty then (text, gap) else (run.reverse ++ gap.text.reverse ++ text, {})
        let cursor := cursor.advance run.length
        if cursor.atSpace || cursor.atBreak then
          let (gap, cursor) ← gap.scan (some indent) (cursor.rest.length + 1) cursor
          if !inFlow && cursor.column < indent then return (text, gap, cursor)
          scanPlain inFlow indent fuel text gap cursor
        else return (text, gap, cursor)

/-- The character that a letter behind a backslash stands for. -/
def escapedChar? (c : Char) : Option Char :=
  (escapes.find? (·.1 = c)).map (·.2)
where
  /-- The letters with their characters. -/
  escapes : List (Char × Char) :=
    [('0', '\x00'), ('a', '\x07'), ('b', '\x08'), ('t', '\t'), ('\t', '\t'), ('n', '\n'), ('v', '\x0b'), ('f', '\x0c'),
      ('r', '\r'), ('e', '\x1b'), (' ', ' '), ('"', '"'), ('/', '/'), ('\\', '\\'), ('N', '\u0085'), ('_', '\u00a0'),
      ('L', '\u2028'), ('P', '\u2029')]

/-- How many hexadecimal digits follow a letter behind a backslash. -/
def escapeLength? (c : Char) : Option Nat :=
  if c = 'x' then some 2 else if c = 'u' then some 4 else if c = 'U' then some 8 else none

/-- Reads a quoted scalar up to a gap or the closing quote: the characters backwards, the place, and whether the line end there is
escaped. -/
def scanQuotedRun (single : Bool) :
    (fuel : Nat) → (text : List Char) → Cursor → Except SyntaxError (List Char × Cursor × Bool)
  | 0, text, cursor => .ok (text, cursor, false)
  | fuel + 1, text, cursor =>
    match cursor.rest with
    | [] => .ok (text, cursor, false)
    | c :: rest =>
      if isSpace c || isBreak c then .ok (text, cursor, false)
      else if single then
        if c = '\'' then
          if rest.head? = some '\'' then scanQuotedRun single fuel ('\'' :: text) (cursor.advance 2)
          else .ok (text, cursor, false)
        else scanQuotedRun single fuel (c :: text) (cursor.advance 1)
      else if c = '"' then .ok (text, cursor, false)
      else if c ≠ '\\' then scanQuotedRun single fuel (c :: text) (cursor.advance 1)
      else match (cursor.advance 1).break? with
        | some (_, next) => .ok (text, next, true)
        | none =>
          match rest with
          | [] => cursor.fail "found unknown escape character"
          | letter :: digits =>
            match escapedChar? letter, escapeLength? letter with
            | some c, _ => scanQuotedRun single fuel (c :: text) (cursor.advance 2)
            | none, some length =>
              match Text.natural? 16 (digits.take length) with
              | some number =>
                if digits.length < length then cursor.fail "did not find expected hexdecimal number"
                else if number.isValidChar then
                  scanQuotedRun single fuel (Char.ofNat number :: text) (cursor.advance (2 + length))
                else cursor.fail "found invalid Unicode character escape code"
              | none => cursor.fail "did not find expected hexdecimal number"
            | none, none => cursor.fail "found unknown escape character"

/-- Reads a quoted scalar behind its opening quote: its text backwards, and the place behind the closing quote. -/
def scanQuoted (single : Bool) : (fuel : Nat) → (text : List Char) → Cursor → Except SyntaxError (List Char × Cursor)
  | 0, _, cursor => cursor.fail "found unexpected end of stream"
  | fuel + 1, text, cursor =>
    if cursor.atDocumentMarker then cursor.fail "found unexpected document indicator"
    else if cursor.rest.isEmpty then cursor.fail "found unexpected end of stream"
    else do
      let (text, cursor, escapedBreak) ← scanQuotedRun single (cursor.rest.length + 1) text cursor
      if cursor.nextIs (if single then '\'' else '"') then return (text, cursor.advance 1)
      let (gap, next) ← Gap.scan none (cursor.rest.length + 1) { broken := escapedBreak } cursor
      scanQuoted single fuel (gap.text.reverse ++ text) next

/-- What becomes of the line ends at the end of a block scalar. -/
inductive Chomping where
  /-- All are dropped. -/
  | strip
  /-- One is kept. -/
  | clip
  /-- All are kept. -/
  | keep
deriving DecidableEq, Repr

/-- Reads the empty lines in a block scalar up to the next line with content: the indentation, which is determined here if it is
zero, the line ends, and the place. -/
def scanBlockBreaks (parent : Int) :
    (fuel indent deepest : Nat) → (breaks : List Char) → Cursor → Except SyntaxError (Nat × List Char × Cursor)
  | 0, indent, _, breaks, cursor => .ok (indent, breaks, cursor)
  | fuel + 1, indent, deepest, breaks, cursor =>
    let spaces := (cursor.rest.takeWhile (· = ' ')).length
    let cursor := cursor.advance (if indent = 0 then spaces else min spaces (indent - cursor.column))
    let deepest := max deepest cursor.column
    if (indent = 0 || cursor.column < indent) && cursor.nextIs '\t' then
      cursor.fail "found a tab character where an indentation space is expected"
    else match cursor.break? with
      | some (c, next) => scanBlockBreaks parent fuel indent deepest (breaks ++ [c]) next
      | none =>
        .ok (if indent = 0 then max deepest (max (parent + 1).toNat 1) else indent, breaks, cursor)

/-- Reads the lines of a block scalar: the text backwards, the line end behind its last line and those behind that one, and the
place. -/
def scanBlockLines (literal : Bool) (parent : Int) (indent : Nat) :
    (fuel : Nat) → (text : List Char) → (afterSpace : Bool) → (lineBreak breaks : List Char) → Cursor →
      Except SyntaxError (List Char × List Char × List Char × Cursor)
  | 0, text, _, lineBreak, breaks, cursor => .ok (text, lineBreak, breaks, cursor)
  | fuel + 1, text, afterSpace, lineBreak, breaks, cursor =>
    if cursor.column ≠ indent || cursor.rest.isEmpty then .ok (text, lineBreak, breaks, cursor)
    else do
      let atSpace := cursor.atSpace
      let joined :=
        if !literal && lineBreak = ['\n'] && !afterSpace && !atSpace then (if breaks.isEmpty then [' '] else [])
        else lineBreak
      let (line, cursor) := cursor.span (!isBreak ·)
      let text := line.reverse ++ breaks.reverse ++ joined.reverse ++ text
      let (lineBreak, cursor) := match cursor.break? with
        | some (c, next) => ([c], next)
        | none => ([], cursor)
      let (_, breaks, cursor) ← scanBlockBreaks parent (cursor.rest.length + 1) indent 0 [] cursor
      scanBlockLines literal parent indent fuel text atSpace lineBreak breaks cursor

/-- Reads a digit that gives the indentation of a block scalar, if one is there; zero is no indentation. -/
def scanIndentation (cursor : Cursor) : Except SyntaxError (Nat × Cursor) :=
  match cursor.peek? with
  | some c =>
    if c = '0' then cursor.fail "found an indentation indicator equal to 0"
    else if Text.isDigit c then .ok (c.toNat - '0'.toNat, cursor.advance 1)
    else .ok (0, cursor)
  | none => .ok (0, cursor)

/-- Reads the sign that says what becomes of the line ends of a block scalar, if one is there. -/
def scanChomping (cursor : Cursor) : Option Chomping × Cursor :=
  if cursor.nextIs '+' then (some .keep, cursor.advance 1)
  else if cursor.nextIs '-' then (some .strip, cursor.advance 1)
  else (none, cursor)

/-- The place behind spaces and a comment, which has to be the end of a line. -/
def finishLine (cursor : Cursor) : Except SyntaxError Cursor :=
  let cursor := cursor.skip isSpace
  let cursor := if cursor.nextIs '#' then cursor.skip (!isBreak ·) else cursor
  if cursor.atLineEnd then .ok ((cursor.break?.map (·.2)).getD cursor)
  else cursor.fail "did not find expected comment or line break"

/-- Reads a block scalar behind its indicator; `parent` is the indentation of the block around it. -/
def scanBlock (literal : Bool) (parent : Int) (cursor : Cursor) : Except SyntaxError (List Char × Cursor) := do
  let (chomping, cursor) := scanChomping cursor
  let (increment, cursor) ← scanIndentation cursor
  let (chomping, cursor) := match chomping with
    | some chomping => (chomping, cursor)
    | none =>
      if increment = 0 then (.clip, cursor)
      else let (later, cursor) := scanChomping cursor; (later.getD .clip, cursor)
  let cursor ← finishLine cursor
  let indent := if increment = 0 then 0 else (max parent 0).toNat + increment
  let (indent, breaks, cursor) ← scanBlockBreaks parent (cursor.rest.length + 1) indent 0 [] cursor
  let (text, lineBreak, breaks, cursor) ←
    scanBlockLines literal parent indent (cursor.rest.length + 1) [] false [] breaks cursor
  let text := match chomping with
    | .strip => text.reverse
    | .clip => text.reverse ++ lineBreak
    | .keep => text.reverse ++ lineBreak ++ breaks
  return (text, cursor)

/-! ## Tags and directives -/

/-- The number that the eight bits of an octet written as a percent sign and two digits make, and what stands behind. -/
def percentOctet? : List Char → Option (Nat × List Char)
  | '%' :: a :: b :: rest => (Text.natural? 16 [a, b]).map fun n => (n, rest)
  | _ => none

/-- Further octets of one character. -/
def percentRest? : (count value : Nat) → List Char → Option (Nat × List Char)
  | 0, value, text => some (value, text)
  | count + 1, value, text => do
    let (octet, text) ← percentOctet? text
    if octet / 64 = 2 then percentRest? count (value * 64 + octet % 64) text else none

/-- A character written as octets behind percent signs, and how many characters that took. -/
def percentChar? (text : List Char) : Option (Char × Nat) := do
  let (octet, behind) ← percentOctet? text
  let (count, value) ←
    if octet < 128 then some (0, octet)
    else if octet / 32 = 6 then some (1, octet % 32)
    else if octet / 16 = 14 then some (2, octet % 16)
    else if octet / 8 = 30 then some (3, octet % 8)
    else none
  let (number, _) ← percentRest? count value behind
  return (if number.isValidChar then Char.ofNat number else '\ufffd', 3 * (count + 1))

/-- Whether a character may be part of the text of a tag; inside angle brackets three more may. -/
def isTagChar (verbatim : Bool) (c : Char) : Bool :=
  isWordChar c || ";/?:@&=+$.%!~*'()".toList.contains c || (verbatim && ",[]".toList.contains c)

/-- Reads the text of a tag: its characters backwards and the place behind. -/
def scanTagText (verbatim : Bool) : (fuel : Nat) → (text : List Char) → Cursor → Except SyntaxError (List Char × Cursor)
  | 0, text, cursor => .ok (text, cursor)
  | fuel + 1, text, cursor =>
    match cursor.peek? with
    | some c =>
      if !isTagChar verbatim c then .ok (text, cursor)
      else if c = '%' then
        match percentChar? cursor.rest with
        | some (c, length) => scanTagText verbatim fuel (c :: text) (cursor.advance length)
        | none => cursor.fail "did not find URI escaped octet"
      else scanTagText verbatim fuel (c :: text) (cursor.advance 1)
    | none => .ok (text, cursor)

/-- Reads the text of a tag. -/
def scanTagSuffix (verbatim : Bool) (cursor : Cursor) : Except SyntaxError (String × Cursor) := do
  let (text, cursor) ← scanTagText verbatim (cursor.rest.length + 1) [] cursor
  return (String.ofList text.reverse, cursor)

/-- Reads the handle of a tag: an exclamation mark, perhaps a word, perhaps another mark. -/
def scanTagHandle (cursor : Cursor) : Except SyntaxError (String × Cursor) :=
  if cursor.nextIs '!' then
    let (word, next) := (cursor.advance 1).span isWordChar
    if next.nextIs '!' then .ok (String.ofList ('!' :: word ++ ['!']), next.advance 1)
    else .ok (String.ofList ('!' :: word), next)
  else cursor.fail "did not find expected '!'"

/-- Reads a tag: a text in angle brackets, a handle of its own with a text, or the common handle with a text. -/
def scanTag (inFlow : Bool) (cursor : Cursor) : Except SyntaxError (Token × Cursor) := do
  let (token, cursor) ←
    if (cursor.advance 1).nextIs '<' then do
      let (suffix, cursor) ← scanTagSuffix true (cursor.advance 2)
      if suffix.isEmpty then cursor.fail "did not find expected tag URI"
      else if cursor.nextIs '>' then pure (Token.tag "" suffix, cursor.advance 1)
      else cursor.fail "did not find the expected '>'"
    else do
      let (handle, cursor) ← scanTagHandle cursor
      let (suffix, cursor) ← scanTagSuffix false cursor
      if 1 < handle.length && handle.toList.getLast? = some '!' then
        if suffix.isEmpty then cursor.fail "did not find expected tag URI"
        else pure (Token.tag handle suffix, cursor)
      else
        let suffix := String.ofList (handle.toList.drop 1) ++ suffix
        pure (if suffix.isEmpty then Token.tag "" "!" else Token.tag "!" suffix, cursor)
  if atGap cursor.rest || (inFlow && cursor.nextIs ',') then return (token, cursor)
  else cursor.fail "did not find expected whitespace or line break"

/-- Reads the name of an anchor behind its indicator. -/
def scanAnchorName (cursor : Cursor) : Except SyntaxError (String × Cursor) :=
  let (name, next) := cursor.span isWordChar
  if name.isEmpty || !(atGap next.rest || next.nextIn "?:,]\x7d%@`") then
    cursor.fail "did not find expected alphabetic or numeric character"
  else .ok (String.ofList name, next)

/-- Reads a number of at most nine digits. -/
def scanVersionNumber (cursor : Cursor) : Except SyntaxError (Nat × Cursor) :=
  let (digits, next) := cursor.span Text.isDigit
  match Text.natural? 10 digits with
  | none => cursor.fail "did not find expected version number"
  | some n => if 9 < digits.length then cursor.fail "found extremely long version number" else .ok (n, next)

/-- Reads a directive behind its indicator, up to the end of its line. -/
def scanDirective (cursor : Cursor) : Except SyntaxError (Token × Cursor) := do
  let (name, next) := cursor.span isWordChar
  if name.isEmpty then cursor.fail "could not find expected directive name"
  else if !atGap next.rest then next.fail "found unexpected non-alphabetical character"
  else
    let (token, next) ←
      if name = "YAML".toList then do
        let (major, next) ← scanVersionNumber (next.skip isSpace)
        if next.nextIs '.' then
          let (minor, next) ← scanVersionNumber (next.advance 1)
          pure (Token.version major minor, next)
        else next.fail "did not find expected digit or '.' character"
      else if name = "TAG".toList then do
        let (handle, next) ← scanTagHandle (next.skip isSpace)
        if handle ≠ "!" && handle.toList.getLast? ≠ some '!' then next.fail "did not find expected '!'"
        else if !next.atSpace then next.fail "did not find expected whitespace"
        else
          let (meaning, next) ← scanTagSuffix true (next.skip isSpace)
          if meaning.isEmpty then next.fail "did not find expected tag URI"
          else if !atGap next.rest then next.fail "did not find expected whitespace or line break"
          else pure (Token.handle handle meaning, next)
      else cursor.fail "found unknown directive name"
    return (token, ← finishLine next)

/-! ## The sequence of tokens -/

/-- A place where a key may stand. -/
structure KeyPlace where
  /-- Whether the block around it needs a key there. -/
  isRequired : Bool
  /-- How many tokens stand in front of it. -/
  tokenCount : Nat
  /-- The place. -/
  cursor : Cursor
deriving Repr, Inhabited

/-- Whether a key that begins there can still have its colon at another place. -/
def KeyPlace.isOpen (place : KeyPlace) (cursor : Cursor) : Bool :=
  place.cursor.line = cursor.line && cursor.index ≤ place.cursor.index + 1024

/-- The state of reading tokens. -/
structure Scanner where
  /-- The place reached. -/
  cursor : Cursor
  /-- The column of the block that is open; `-1` outside all blocks. -/
  indent : Int := -1
  /-- The columns of the blocks around it, innermost first. -/
  indents : List Int := []
  /-- Whether a key may stand here. -/
  keyAllowed : Bool := true
  /-- The noted place of a key. -/
  keyPlace : Option KeyPlace := none
  /-- The noted places outside the brackets that are open, innermost first. -/
  outerPlaces : List (Option KeyPlace) := []
  /-- The tokens, last one first. -/
  tokens : List PlacedToken := []
  /-- How many tokens there are. -/
  count : Nat := 0
deriving Inhabited

namespace Scanner

/-- Whether brackets are open. -/
def inFlow (s : Scanner) : Bool :=
  !s.outerPlaces.isEmpty

/-- The scanner with one more token, which begins at a place. -/
def push (s : Scanner) (token : Token) (place : Cursor) : Scanner :=
  { s with tokens := ⟨token, place.line, place.column⟩ :: s.tokens, count := s.count + 1 }

/-- The scanner with a token behind the first `position` ones. -/
def insertAt (s : Scanner) (position : Nat) (token : Token) (place : Cursor) : Scanner :=
  let later := s.count - position
  { s with
    tokens := s.tokens.take later ++ ⟨token, place.line, place.column⟩ :: s.tokens.drop later
    count := s.count + 1 }

/-- Closes the blocks that stand further to the right than a column. -/
def closeBlocks (s : Scanner) (column : Int) : List Int → Scanner
  | [] => s
  | outer :: rest =>
    if column < s.indent then
      closeBlocks { s.push .blockEnd s.cursor with indent := outer, indents := rest } column rest
    else s

/-- Closes the blocks that stand further to the right than a column, outside of brackets. -/
def unroll (s : Scanner) (column : Int) : Scanner :=
  if s.inFlow then s else s.closeBlocks column s.indents

/-- Opens a block at a place, if that stands further to the right than the open block; the token that says so comes behind the
first `position` ones. -/
def roll (s : Scanner) (token : Token) (position : Nat) (place : Cursor) : Scanner :=
  if !s.inFlow && s.indent < place.column then
    { s.insertAt position token place with indent := place.column, indents := s.indent :: s.indents }
  else s

/-- Forgets the noted place of a key, which must not be one that is required. -/
def dropKey (s : Scanner) : Except SyntaxError Scanner :=
  match s.keyPlace with
  | some place =>
    if place.isRequired then place.cursor.fail "could not find expected ':'" else .ok { s with keyPlace := none }
  | none => .ok s

/-- Notes that a key may stand here. -/
def noteKey (s : Scanner) : Except SyntaxError Scanner :=
  if s.keyAllowed then do
    let isRequired := !s.inFlow && s.indent = s.cursor.column
    let s ← s.dropKey
    return { s with keyPlace := some { isRequired, tokenCount := s.count, cursor := s.cursor } }
  else .ok s

/-- A noted place, if it is open still; a required one has to be. -/
def checkPlace (cursor : Cursor) : Option KeyPlace → Except SyntaxError (Option KeyPlace)
  | none => .ok none
  | some place =>
    if place.isOpen cursor then .ok (some place)
    else if place.isRequired then place.cursor.fail "could not find expected ':'"
    else .ok none

/-- Forgets the noted places that are open no more. -/
def dropStaleKeys (s : Scanner) : Except SyntaxError Scanner := do
  let outerPlaces ← s.outerPlaces.mapM (checkPlace s.cursor)
  return { s with keyPlace := ← checkPlace s.cursor s.keyPlace, outerPlaces }

/-- The place of the next token, behind blanks, comments, line ends and a byte order mark at the beginning of a line; outside of
brackets, a key may stand at the beginning of a line. -/
def toNextToken (inFlow : Bool) : (fuel : Nat) → Cursor → (keyAllowed : Bool) → Cursor × Bool
  | 0, cursor, keyAllowed => (cursor, keyAllowed)
  | fuel + 1, cursor, keyAllowed =>
    let cursor := if cursor.column = 0 && cursor.nextIs '\ufeff' then cursor.advance 1 else cursor
    let cursor := cursor.skip fun c => c = ' ' || ((inFlow || !keyAllowed) && c = '\t')
    let cursor := if cursor.nextIs '#' then cursor.skip (!isBreak ·) else cursor
    match cursor.break? with
    | some (_, next) => toNextToken inFlow fuel next (!inFlow || keyAllowed)
    | none => (cursor, keyAllowed)

/-- Takes the next characters as one token. -/
def take (s : Scanner) (count : Nat) (token : Token) : Scanner :=
  { s.push token s.cursor with cursor := s.cursor.advance count }

/-- Reads the end of the text. -/
def fetchEnd (s : Scanner) : Except SyntaxError Scanner := do
  let s ← (s.unroll (-1)).dropKey
  return { s.push .streamEnd s.cursor with keyAllowed := false }

/-- Reads a directive. -/
def fetchDirective (s : Scanner) : Except SyntaxError Scanner := do
  let s ← (s.unroll (-1)).dropKey
  let (token, next) ← scanDirective (s.cursor.advance 1)
  return { s.push token s.cursor with cursor := next, keyAllowed := false }

/-- Reads a marker of documents. -/
def fetchMarker (s : Scanner) (token : Token) : Except SyntaxError Scanner := do
  let s ← (s.unroll (-1)).dropKey
  return { s.take 3 token with keyAllowed := false }

/-- Reads an opening bracket or brace. -/
def fetchOpening (s : Scanner) (token : Token) : Except SyntaxError Scanner := do
  let s ← s.noteKey
  let s := s.take 1 token
  return { s with keyAllowed := true, keyPlace := none, outerPlaces := s.keyPlace :: s.outerPlaces }

/-- Reads a closing bracket or brace. -/
def fetchClosing (s : Scanner) (token : Token) : Except SyntaxError Scanner := do
  let s ← s.dropKey
  let s := { s.take 1 token with keyAllowed := false }
  return match s.outerPlaces with
    | [] => s
    | place :: rest => { s with keyPlace := place, outerPlaces := rest }

/-- Reads a comma between entries. -/
def fetchFlowEntry (s : Scanner) : Except SyntaxError Scanner := do
  let s ← s.dropKey
  return { s.take 1 .flowEntry with keyAllowed := true }

/-- Reads the dash in front of an entry. -/
def fetchBlockEntry (s : Scanner) : Except SyntaxError Scanner := do
  if !s.inFlow && !s.keyAllowed then s.cursor.fail "block sequence entries are not allowed in this context"
  else
    let s ← (s.roll .blockSequenceStart s.count s.cursor).dropKey
    return { s.take 1 .blockEntry with keyAllowed := true }

/-- Reads the question mark in front of a key. -/
def fetchKey (s : Scanner) : Except SyntaxError Scanner := do
  if !s.inFlow && !s.keyAllowed then s.cursor.fail "mapping keys are not allowed in this context"
  else
    let s ← (s.roll .blockMappingStart s.count s.cursor).dropKey
    return { s.take 1 .key with keyAllowed := !s.inFlow }

/-- Reads the colon in front of a value. -/
def fetchValue (s : Scanner) : Except SyntaxError Scanner :=
  match s.keyPlace with
  | some place =>
    let s := (s.insertAt place.tokenCount .key place.cursor).roll .blockMappingStart place.tokenCount place.cursor
    .ok { s.take 1 .value with keyPlace := none, keyAllowed := false }
  | none =>
    if !s.inFlow && !s.keyAllowed then s.cursor.fail "mapping values are not allowed in this context"
    else
      let s := s.roll .blockMappingStart s.count s.cursor
      .ok { s.take 1 .value with keyAllowed := !s.inFlow }

/-- Reads the name of an anchor, or a reference to one. -/
def fetchAnchor (s : Scanner) (token : String → Token) : Except SyntaxError Scanner := do
  let s ← s.noteKey
  let (name, next) ← scanAnchorName (s.cursor.advance 1)
  return { s.push (token name) s.cursor with cursor := next, keyAllowed := false }

/-- Reads a tag. -/
def fetchTag (s : Scanner) : Except SyntaxError Scanner := do
  let s ← s.noteKey
  let (token, next) ← scanTag s.inFlow s.cursor
  return { s.push token s.cursor with cursor := next, keyAllowed := false }

/-- Reads a block scalar. -/
def fetchBlock (s : Scanner) (literal : Bool) : Except SyntaxError Scanner := do
  let s ← s.dropKey
  let (text, next) ← scanBlock literal s.indent (s.cursor.advance 1)
  return { s.push (.scalar (String.ofList text) false) s.cursor with cursor := next, keyAllowed := true }

/-- Reads a quoted scalar. -/
def fetchQuoted (s : Scanner) (single : Bool) : Except SyntaxError Scanner := do
  let s ← s.noteKey
  let (text, next) ← scanQuoted single (s.cursor.rest.length + 1) [] (s.cursor.advance 1)
  return { s.push (.scalar (String.ofList text.reverse) false) s.cursor with cursor := next, keyAllowed := false }

/-- Reads a plain scalar; a key may stand behind it if it is followed by a line end. -/
def fetchPlain (s : Scanner) : Except SyntaxError Scanner := do
  let s ← s.noteKey
  let (text, gap, next) ← scanPlain s.inFlow (s.indent + 1) (s.cursor.rest.length + 1) [] {} s.cursor
  return { s.push (.scalar (String.ofList text.reverse) true) s.cursor with cursor := next, keyAllowed := gap.broken }

/-- Reads the next token; also says whether it was the last. -/
def fetch (s : Scanner) : Except SyntaxError (Scanner × Bool) := do
  let (cursor, keyAllowed) := toNextToken s.inFlow (s.cursor.rest.length + 1) s.cursor s.keyAllowed
  let s ← { s with cursor, keyAllowed }.dropStaleKeys
  let s := s.unroll s.cursor.column
  match s.cursor.rest with
  | [] => return (← s.fetchEnd, true)
  | c :: rest =>
    let gapBehind := atGap rest
    let next ←
      if s.cursor.column = 0 && c = '%' then s.fetchDirective
      else if s.cursor.atMarker '-' then s.fetchMarker .documentStart
      else if s.cursor.atMarker '.' then s.fetchMarker .documentEnd
      else if c = '[' then s.fetchOpening .flowSequenceStart
      else if c = '{' then s.fetchOpening .flowMappingStart
      else if c = ']' then s.fetchClosing .flowSequenceEnd
      else if c = '}' then s.fetchClosing .flowMappingEnd
      else if c = ',' then s.fetchFlowEntry
      else if c = '-' && gapBehind then s.fetchBlockEntry
      else if c = '?' && (s.inFlow || gapBehind) then s.fetchKey
      else if c = ':' && (s.inFlow || gapBehind) then s.fetchValue
      else if c = '*' then s.fetchAnchor .alias
      else if c = '&' then s.fetchAnchor .anchor
      else if c = '!' then s.fetchTag
      else if c = '|' && !s.inFlow then s.fetchBlock true
      else if c = '>' && !s.inFlow then s.fetchBlock false
      else if c = '\'' then s.fetchQuoted true
      else if c = '"' then s.fetchQuoted false
      else if !(isSpace c || "-?:,[]\x7b\x7d#&*!|>'\"%@`".toList.contains c) ||
          (c = '-' && !rest.head?.any isSpace) || (!s.inFlow && (c = '?' || c = ':') && !gapBehind) then s.fetchPlain
      else s.cursor.fail "found character that cannot start any token"
    return (next, false)

/-- The tokens in front of every place that may still turn out to be a key. -/
def settled (s : Scanner) : List PlacedToken :=
  let places := (s.keyPlace :: s.outerPlaces).filterMap fun place => place.filter (·.isOpen s.cursor)
  let count := (places.map (·.tokenCount)).foldl min s.count
  s.tokens.reverse.take count

/-- Reads all tokens, and the error in front of which they end, if there is one. -/
def run : (fuel : Nat) → Scanner → List PlacedToken × Option SyntaxError
  | 0, s => (s.settled, none)
  | fuel + 1, s =>
    match s.fetch with
    | .error problem => (s.settled, some problem)
    | .ok (next, true) => (next.tokens.reverse, none)
    | .ok (next, false) => run fuel next

end Scanner

/-- The tokens of a text, and the error in front of which they end, if there is one. -/
def tokens (text : String) : List PlacedToken × Option SyntaxError :=
  let chars := text.toList
  if chars.all isAllowed then Scanner.run (chars.length + 2) { cursor := { rest := chars } }
  else ([], some { problem := "control characters are not allowed", line := 1, column := 1 })

end Ignition.Yaml
