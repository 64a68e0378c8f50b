import Ignition.Format.Flat
import Ignition.Format.Yaml.Node
import Ignition.Format.Yaml.Scalar

/-!
# YAML values

What a node means: references are followed, scalars are read under their tags, and a node with a tag of its own, which is one that
begins with an exclamation mark, is that tag around the value without it. No two keys of a mapping may be the same value.

Nodes may not be nested more than 128 deep, so a node that refers to itself has no value; and references may not be followed
more often than a hundred times the size of the document.
-/

namespace Ignition.Yaml

/-- A value. -/
inductive Value where
  /-- A scalar. -/
  | scalar (value : Scalar)
  /-- A sequence. -/
  | sequence (items : List Value)
  /-- A mapping, in order. -/
  | mapping (entries : List (Value × Value))
  /-- A value under a tag of its own. -/
  | tagged (tag : String) (value : Value)
deriving Repr, Inhabited

namespace Value

mutual

/-- Whether two values are the same key; the order of the entries of a mapping does not matter. -/
def same : Value → Value → Bool
  | scalar a, scalar b => a.same b
  | sequence xs, sequence ys => sameItems xs ys
  | mapping xs, mapping ys => xs.length = ys.length && entriesIn xs ys
  | tagged s a, tagged t b => s = t && same a b
  | _, _ => false

/-- Whether two sequences have the same items. -/
def sameItems : List Value → List Value → Bool
  | [], [] => true
  | x :: xs, y :: ys => same x y && sameItems xs ys
  | _, _ => false

/-- Whether all entries of a mapping are entries of another. -/
def entriesIn : List (Value × Value) → List (Value × Value) → Bool
  | [], _ => true
  | (k, v) :: rest, ys => ys.any (fun (k', v') => same k k' && same v v') && entriesIn rest ys

end

/-- How deeply nodes may be nested. -/
def depthLimit : Nat := 128

/-- The text of a scalar, also under tags; other values have none. -/
def text? : Value → Option String
  | scalar value => some value.render
  | tagged _ value => value.text?
  | _ => none

mutual

/-- The entries that a value has below a key. A scalar at the root has none. -/
def flatten (key : String) : Value → Entries
  | scalar value => if key.isEmpty then [] else [(key, value.render)]
  | sequence items => flattenItems key 0 items
  | mapping entries => flattenEntries key entries
  | tagged _ value => flatten key value

/-- The entries of the items of a sequence, from an index on. -/
def flattenItems (key : String) (index : Nat) : List Value → Entries
  | [] => []
  | value :: rest => flatten (Flat.item key index) value ++ flattenItems key (index + 1) rest

/-- The entries of a mapping; keys that have no text are left out. -/
def flattenEntries (key : String) : List (Value × Value) → Entries
  | [] => []
  | (name, value) :: rest =>
    (match name.text? with
      | some name => flatten (Flat.below key name) value
      | none => []) ++ flattenEntries key rest

end

/-- A value without the tags around it. -/
def untagged : Value → Value
  | tagged _ value => value.untagged
  | value => value

end Value

/-- The reading of values, with the number of references that may still be followed. -/
abbrev Evaluation := StateT Nat (Except String)

/-- The node that a reference means: of the anchors with its number, the one that begins last. -/
def Document.target? (document : Document) (number : Nat) : Option Node :=
  let candidates := document.anchored.filter (·.number = number)
  (candidates.foldl (fun best next =>
    match best with
    | some (old : Anchored) => if old.order < next.order then some next else best
    | none => some next) none).map (·.node)

/-- A node itself, or the node it refers to. -/
def Document.follow (document : Document) : Node → Evaluation Node
  | .reference number => do
    match ← get with
    | 0 => throw "repetition limit exceeded"
    | left + 1 =>
      set left
      match document.target? number with
      | some node => pure node
      | none => throw "unknown anchor"
  | node => pure node

/-- The tag of its own that a node has: one that begins with an exclamation mark. -/
def ownTag? : Option String → Evaluation (Option String)
  | none => pure none
  | some tag =>
    match tag.toList with
    | '!' :: name => if name.isEmpty then throw "empty YAML tag is not allowed" else pure (some (String.ofList name))
    | _ => pure none

/-- A value under a tag of its own, if there is one. -/
def underTag (tag : Option String) (value : Value) : Value :=
  match tag with
  | some tag => .tagged tag value
  | none => value

/-- The entries of a mapping from nodes; `inner` reads a node inside it. -/
def evaluateEntries (inner : Node → Evaluation Value) (read : List (Value × Value)) :
    List (Node × Node) → Evaluation (List (Value × Value))
  | [] => pure read
  | (key, value) :: rest => do
    let key ← inner key
    if read.any fun (known, _) => known.same key then throw "duplicate entry in YAML map"
    let value ← inner value
    evaluateEntries inner (read ++ [(key, value)]) rest

/-- The value of a node; `inner` reads a node inside it, if one may be there. -/
def Document.evaluateWith (document : Document) (inner : Option (Node → Evaluation Value)) (node : Node) :
    Evaluation Value := do
  match ← document.follow node with
  | .scalar tag text isPlain =>
    let own ← ownTag? tag
    match Scalar.ofTagged? (if own.isSome then none else tag) isPlain text with
    | some value => return underTag own (.scalar value)
    | none => throw "invalid value for the tag"
  | .sequence tag items =>
    let own ← ownTag? tag
    match inner with
    | some inner => return underTag own (.sequence (← items.mapM inner))
    | none => throw "recursion limit exceeded"
  | .mapping tag entries =>
    let own ← ownTag? tag
    match inner with
    | some inner => return underTag own (.mapping (← evaluateEntries inner [] entries))
    | none => throw "recursion limit exceeded"
  | .reference _ => throw "unknown anchor"

/-- The value of a node that may contain `depth` levels of nodes. -/
def Document.evaluate (document : Document) : (depth : Nat) → Node → Evaluation Value
  | 0 => document.evaluateWith none
  | depth + 1 => document.evaluateWith (some (document.evaluate depth))

/-- The value of a document. -/
def Document.value (document : Document) : Except String Value :=
  (document.evaluate Value.depthLimit document.root).run' (100 * document.eventCount)

end Ignition.Yaml
