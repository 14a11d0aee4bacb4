import FileEndpoints.Yaml.Document
import FileEndpoints.Yaml.Scalar

namespace FileEndpoints.Yaml

structure Document where
  root : Node Nat

/-- Reading from a document, with the number of aliases that may still be followed. -/
abbrev Reading := StateT Nat Option

namespace Document

/-- The greatest number of collections around a value, with the value itself. -/
def maxDepth : Nat := 128

def ofString? (s : String) : Option Document := do
  let ts ← Token.ofChars? s.toList
  let root ← (← Node.ofTokens? ts)
  let (_, root) ← Node.number [] root
  return { root }

def read {α : Type} (d : Document) (reading : Document → Node Nat → Reading α) : Option α :=
  (reading d d.root).run' (100 * d.root.size)

def follow (d : Document) : Node Nat → Reading (Node Nat)
  | .aliasOf a => do
    let left ← get
    guard (0 < left)
    set (left - 1)
    d.root.marked? a
  | n => pure n

/-- The text of a scalar, whatever else it stands for. -/
def text (d : Document) (n : Node Nat) : Reading String := do
  match ← d.follow n with
  | .scalar _ _ s _ => return s
  | _ => failure

/-- The items of a sequence. A blank node has none. -/
def items (d : Document) (n : Node Nat) : Reading (List (Node Nat)) := do
  match ← d.follow n with
  | .sequence _ _ items => return items
  | .scalar _ _ "" true => return []
  | _ => failure

/-- The entries of a mapping, with the texts of their keys. A blank node has none. -/
def fields (d : Document) (n : Node Nat) : Reading (List (String × Node Nat)) := do
  match ← d.follow n with
  | .mapping _ _ entries => entries.mapM fun (k, v) => do return (← d.text k, v)
  | .scalar _ _ "" true => return []
  | _ => failure

/-- The JSON value of a node, with at most `depth` collections around each other. -/
def value (d : Document) (depth : Nat) (n : Node Nat) : Reading Json := do
  match depth, ← d.follow n with
  | _, .scalar _ tag s plain => jsonOfScalar? tag s plain
  | depth + 1, .sequence _ tag items =>
    guard !tag.any Tag.isLocal
    return .arr (← items.mapM (d.value depth))
  | depth + 1, .mapping _ tag entries =>
    guard !tag.any Tag.isLocal
    return .ofMembers (← entries.mapM fun (k, v) => do return (← d.text k, ← d.value depth v))
  | _, _ => failure

/-- Whether a scalar says that there is no value. A text that its tag calls null must be a word for
it. -/
def isAbsent? (tag : Option Tag) (s : String) (plain : Bool) : Option Bool :=
  if !plain then some false
  else if tag = some (.core "null") then if Look.isNull s then some true else none
  else some (tag.isNone && (s == "" || Look.isNull s))

/-- The JSON value of a node that may say that there is none. -/
def value? (d : Document) (depth : Nat) (n : Node Nat) : Reading (Option Json) := do
  match ← d.follow n with
  | .scalar a tag s plain =>
    if ← isAbsent? tag s plain then return none
    else return some (← d.value depth (.scalar a tag s plain))
  | n => return some (← d.value depth n)

end Document

end FileEndpoints.Yaml
