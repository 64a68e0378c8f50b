import Ignition.Format.Yaml.Token

/-!
# YAML nodes

The tokens of a text form documents, each of which is one node: a scalar, a sequence, a mapping, or a reference to a node with an
anchor. Sequences and mappings are written as blocks or in brackets; the two ways give the same nodes. A missing node is an empty
plain scalar.

An anchor may be given again, and a reference means the latest node so named. References carry numbers: an anchor gets as its
number how many different names were given before it, so two anchors may come to share a number, and then the one that begins
later has it.
-/

namespace Ignition.Yaml

/-- A node of a document. -/
inductive Node where
  /-- A scalar with its tag. -/
  | scalar (tag : Option String) (text : String) (isPlain : Bool)
  /-- A sequence with its tag. -/
  | sequence (tag : Option String) (items : List Node)
  /-- A mapping with its tag. -/
  | mapping (tag : Option String) (entries : List (Node × Node))
  /-- A reference to the anchor of a number. -/
  | reference (number : Nat)
deriving Repr, Inhabited

/-- A node with an anchor. -/
structure Anchored where
  /-- The number of the anchor. -/
  number : Nat
  /-- How many anchors were met before. -/
  order : Nat
  /-- The node. -/
  node : Node
deriving Repr, Inhabited

/-- A document. -/
structure Document where
  /-- Its node. -/
  root : Node
  /-- The nodes with anchors. -/
  anchored : List Anchored
  /-- How many starts and ends of nodes there are. -/
  eventCount : Nat
deriving Repr, Inhabited

/-- What is known while tokens are read. -/
structure NodeReader where
  /-- The tokens that are left. -/
  tokens : List PlacedToken
  /-- The error behind the last of them. -/
  ending : Option SyntaxError
  /-- The handles of tags with their meanings. -/
  handles : List (String × String) := []
  /-- The names of anchors with their numbers. -/
  anchors : List (String × Nat) := []
  /-- The nodes with anchors so far. -/
  anchored : List Anchored := []
  /-- How many anchors were met. -/
  anchorCount : Nat := 0
  /-- How many starts and ends of nodes were met. -/
  eventCount : Nat := 0
deriving Inhabited

/-- A part of the reading of nodes. -/
abbrev Reading := StateT NodeReader (Except SyntaxError)

namespace Reading

/-- The next token. -/
def peek : Reading Token := do
  let s ← get
  match s.tokens, s.ending with
  | placed :: _, _ => return placed.token
  | [], some problem => throw problem
  | [], none => throw { problem := "found unexpected end of stream", line := 1, column := 1 }

/-- Takes the next token away. -/
def drop : Reading Unit :=
  modify fun s => { s with tokens := s.tokens.drop 1 }

/-- A failure at the next token. -/
def fail {α : Type} (problem : String) : Reading α := do
  match (← get).tokens with
  | placed :: _ => throw { problem, line := placed.line + 1, column := placed.column + 1 }
  | [] => throw { problem, line := 1, column := 1 }

/-- Counts starts and ends of nodes. -/
def countEvents (count : Nat) : Reading Unit :=
  modify fun s => { s with eventCount := s.eventCount + count }

/-- A missing node. -/
def missing : Reading Node := do
  countEvents 1
  return .scalar none "" true

/-- The number of a newly met anchor, and how many were met before. -/
def nameAnchor (name : String) : Reading (Nat × Nat) := do
  let s ← get
  let number := s.anchors.length
  let anchors := if s.anchors.any (·.1 = name) then
      s.anchors.map fun (known, old) => if known = name then (known, number) else (known, old)
    else s.anchors ++ [(name, number)]
  set { s with anchors, anchorCount := s.anchorCount + 1 }
  return (number, s.anchorCount)

/-- Keeps a node that has an anchor. -/
def keep (anchor : Option (Nat × Nat)) (node : Node) : Reading Node := do
  match anchor with
  | some (number, order) => modify fun s => { s with anchored := { number, order, node } :: s.anchored }
  | none => pure ()
  return node

/-- What a tag stands for. -/
def meaning (handle suffix : String) : Reading String := do
  if handle.isEmpty then return suffix
  match (← get).handles.find? (·.1 = handle) with
  | some (_, text) => return text ++ suffix
  | none => fail "found undefined tag handle"

/-- The anchor and the tag in front of a node, in either order. -/
def properties : Reading (Option String × Option String) := do
  match ← peek with
  | .anchor name =>
    drop
    match ← peek with
    | .tag handle suffix => do
      drop
      return (some name, some (← meaning handle suffix))
    | _ => return (some name, none)
  | .tag handle suffix =>
    drop
    match ← peek with
    | .anchor name => do
      drop
      return (some name, some (← meaning handle suffix))
    | _ => return (none, some (← meaning handle suffix))
  | _ => return (none, none)

mutual

/-- Reads a node; `block` says whether it may be a block, and `bare` whether a sequence may stand without a block of its own.
`fuel` bounds the tokens read. -/
def node (fuel : Nat) (block bare : Bool) : Reading Node :=
  match fuel with
  | 0 => fail "found unexpected end of stream"
  | fuel + 1 => do
    match ← peek with
    | .alias name =>
      match (← get).anchors.find? (·.1 = name) with
      | some (_, number) =>
        drop
        countEvents 1
        return .reference number
      | none => fail "unknown anchor"
    | _ =>
      let (name, tag) ← properties
      let token ← peek
      let opensNode := match token with
        | .blockEntry => bare
        | .scalar .. | .flowSequenceStart | .flowMappingStart => true
        | .blockSequenceStart | .blockMappingStart => block
        | _ => false
      if !(opensNode || name.isSome || tag.isSome) then fail "did not find expected node content"
      else
        let anchor ← match name with
          | some name => pure (some (← nameAnchor name))
          | none => pure none
        match token with
        | .blockEntry =>
          if bare then
            countEvents 2
            keep anchor (.sequence tag (← bareSequence fuel))
          else
            countEvents 1
            keep anchor (.scalar tag "" true)
        | .scalar text isPlain =>
          drop
          countEvents 1
          keep anchor (.scalar (if tag = some "!" then none else tag) text isPlain)
        | .flowSequenceStart =>
          drop
          countEvents 2
          keep anchor (.sequence tag (← flowSequence fuel true))
        | .flowMappingStart =>
          drop
          countEvents 2
          keep anchor (.mapping tag (← flowMapping fuel true))
        | .blockSequenceStart =>
          if block then
            drop
            countEvents 2
            keep anchor (.sequence tag (← blockSequence fuel))
          else
            countEvents 1
            keep anchor (.scalar tag "" true)
        | .blockMappingStart =>
          if block then
            drop
            countEvents 2
            keep anchor (.mapping tag (← blockMapping fuel))
          else
            countEvents 1
            keep anchor (.scalar tag "" true)
        | _ =>
          countEvents 1
          keep anchor (.scalar tag "" true)

/-- Reads the items of a block sequence and its end. -/
def blockSequence (fuel : Nat) : Reading (List Node) :=
  match fuel with
  | 0 => fail "found unexpected end of stream"
  | fuel + 1 => do
    match ← peek with
    | .blockEntry =>
      drop
      let item ← match ← peek with
        | .blockEntry | .blockEnd => missing
        | _ => node fuel true false
      return item :: (← blockSequence fuel)
    | .blockEnd =>
      drop
      return []
    | _ => fail "did not find expected '-' indicator"

/-- Reads the items of a sequence that stands as a value without a block of its own. -/
def bareSequence (fuel : Nat) : Reading (List Node) :=
  match fuel with
  | 0 => fail "found unexpected end of stream"
  | fuel + 1 => do
    match ← peek with
    | .blockEntry =>
      drop
      let item ← match ← peek with
        | .blockEntry | .key | .value | .blockEnd => missing
        | _ => node fuel true false
      return item :: (← bareSequence fuel)
    | _ => return []

/-- Reads the entries of a block mapping and its end. -/
def blockMapping (fuel : Nat) : Reading (List (Node × Node)) :=
  match fuel with
  | 0 => fail "found unexpected end of stream"
  | fuel + 1 => do
    match ← peek with
    | .key =>
      drop
      let key ← match ← peek with
        | .key | .value | .blockEnd => missing
        | _ => node fuel true true
      let value ← match ← peek with
        | .value => do
          drop
          match ← peek with
          | .key | .value | .blockEnd => missing
          | _ => node fuel true true
        | _ => missing
      return (key, value) :: (← blockMapping fuel)
    | .blockEnd =>
      drop
      return []
    | _ => fail "did not find expected key"

/-- Reads the items of a sequence in brackets and the closing bracket; an item may be a mapping of one entry without braces. -/
def flowSequence (fuel : Nat) (isFirst : Bool) : Reading (List Node) :=
  match fuel with
  | 0 => fail "found unexpected end of stream"
  | fuel + 1 => do
    let token ← peek
    if token = .flowSequenceEnd then
      drop
      return []
    else
      if !isFirst then
        if token = .flowEntry then drop else fail "did not find expected ',' or ']'"
      match ← peek with
      | .flowSequenceEnd =>
        drop
        return []
      | .key =>
        drop
        countEvents 2
        let key ← match ← peek with
          | .value | .flowEntry | .flowSequenceEnd => do
            drop
            missing
          | _ => node fuel false false
        let value ← match ← peek with
          | .value => do
            drop
            match ← peek with
            | .flowEntry | .flowSequenceEnd => missing
            | _ => node fuel false false
          | _ => missing
        return .mapping none [(key, value)] :: (← flowSequence fuel false)
      | _ =>
        let item ← node fuel false false
        return item :: (← flowSequence fuel false)

/-- Reads the entries of a mapping in braces and the closing brace. -/
def flowMapping (fuel : Nat) (isFirst : Bool) : Reading (List (Node × Node)) :=
  match fuel with
  | 0 => fail "found unexpected end of stream"
  | fuel + 1 => do
    let token ← peek
    if token = .flowMappingEnd then
      drop
      return []
    else
      if !isFirst then
        if token = .flowEntry then drop else fail "did not find expected ',' or '\x7d'"
      match ← peek with
      | .flowMappingEnd =>
        drop
        return []
      | .key =>
        drop
        let key ← match ← peek with
          | .value | .flowEntry | .flowMappingEnd => missing
          | _ => node fuel false false
        let value ← match ← peek with
          | .value => do
            drop
            match ← peek with
            | .flowEntry | .flowMappingEnd => missing
            | _ => node fuel false false
          | _ => missing
        return (key, value) :: (← flowMapping fuel false)
      | _ =>
        let key ← node fuel false false
        let value ← missing
        return (key, value) :: (← flowMapping fuel false)

end

/-- The handles that need no directive. -/
def commonHandles : List (String × String) :=
  [("!", "!"), ("!!", "tag:yaml.org,2002:")]

/-- Reads the directives in front of a document. -/
def directives : (fuel : Nat) → (hasVersion : Bool) → (handles : List (String × String)) → Reading Unit
  | 0, _, _ => fail "found unexpected end of stream"
  | fuel + 1, hasVersion, handles => do
    match ← peek with
    | .version major minor =>
      if hasVersion then fail "found duplicate %YAML directive"
      else if major ≠ 1 || (minor ≠ 1 && minor ≠ 2) then fail "found incompatible YAML document"
      else
        drop
        directives fuel true handles
    | .handle handle text =>
      if handles.any (·.1 = handle) then fail "found duplicate %TAG directive"
      else
        drop
        directives fuel hasVersion (handles ++ [(handle, text)])
    | _ =>
      modify fun s =>
        { s with handles := handles ++ commonHandles.filter fun (handle, _) => !handles.any (·.1 = handle) }

/-- Takes away the markers behind a document. -/
def dropEnds : (fuel : Nat) → Reading Unit
  | 0 => pure ()
  | fuel + 1 => do
    match ← peek with
    | .documentEnd =>
      drop
      dropEnds fuel
    | _ => pure ()

/-- Reads the next document, if there is one; only the first one needs no marker. -/
def document (isFirst : Bool) : Reading (Option Document) := do
  let fuel := 4 * (← get).tokens.length + 16
  modify fun s => { s with handles := commonHandles, anchors := [], anchored := [], anchorCount := 0, eventCount := 0 }
  if !isFirst then dropEnds fuel
  let root ← match isFirst, ← peek with
    | _, .streamEnd => pure none
    | false, _ | _, .version .. | _, .handle .. | _, .documentStart => do
      directives fuel false []
      match ← peek with
      | .documentStart => drop
      | _ => fail "did not find expected <document start>"
      match ← peek with
      | .version .. | .handle .. | .documentStart | .documentEnd | .streamEnd => pure (some (← missing))
      | _ => pure (some (← node fuel true false))
    | true, _ => pure (some (← node fuel true false))
  match root with
  | none => return none
  | some root =>
    match ← peek with
    | .documentEnd => drop
    | _ => pure ()
    let s ← get
    return some { root, anchored := s.anchored, eventCount := s.eventCount }

end Reading

/-- The documents of a text in order, and the error in front of which they end, if there is one. -/
def documents (text : String) : List Document × Option SyntaxError :=
  let (tokens, ending) := tokens text
  read (tokens.length + 1) true { tokens, ending }
where
  /-- Reads the documents that are left. -/
  read : (fuel : Nat) → (isFirst : Bool) → NodeReader → List Document × Option SyntaxError
    | 0, _, _ => ([], none)
    | fuel + 1, isFirst, s =>
      match (Reading.document isFirst).run s with
      | .error problem => ([], some problem)
      | .ok (none, _) => ([], none)
      | .ok (some document, s) =>
        let (rest, problem) := read fuel false s
        (document :: rest, problem)

end Ignition.Yaml
