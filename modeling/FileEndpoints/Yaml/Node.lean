import FileEndpoints.Yaml.Tag

namespace FileEndpoints.Yaml

/-- A node with anchors of a type: names in a text, numbers in a document that has been read. -/
inductive Node (ρ : Type) where
  | aliasOf (anchor : ρ)
  | scalar (anchor : Option ρ) (tag : Option Tag) (text : String) (plain : Bool)
  | sequence (anchor : Option ρ) (tag : Option Tag) (items : List (Node ρ))
  | mapping (anchor : Option ρ) (tag : Option Tag) (entries : List (Node ρ × Node ρ))

namespace Node

variable {ρ : Type}

def blank : Node ρ :=
  scalar none none "" true

def anchor? : Node ρ → Option ρ
  | aliasOf _ => none
  | scalar a .. => a
  | sequence a .. => a
  | mapping a .. => a

mutual

/-- The number of steps that a walk through a node takes: one for each scalar and alias, and two for
each collection. -/
def size : Node ρ → Nat
  | aliasOf _ => 1
  | scalar .. => 1
  | sequence _ _ items => 2 + sizeItems items
  | mapping _ _ entries => 2 + sizeEntries entries

def sizeItems : List (Node ρ) → Nat
  | [] => 0
  | n :: ns => size n + sizeItems ns

def sizeEntries : List (Node ρ × Node ρ) → Nat
  | [] => 0
  | (k, v) :: es => size k + size v + sizeEntries es

end

mutual

/-- A node and all nodes in it, in the order of their beginnings. -/
def nodes : Node ρ → List (Node ρ)
  | aliasOf a => [aliasOf a]
  | scalar a tag text plain => [scalar a tag text plain]
  | sequence a tag items => sequence a tag items :: nodesOfItems items
  | mapping a tag entries => mapping a tag entries :: nodesOfEntries entries

def nodesOfItems : List (Node ρ) → List (Node ρ)
  | [] => []
  | n :: ns => nodes n ++ nodesOfItems ns

def nodesOfEntries : List (Node ρ × Node ρ) → List (Node ρ)
  | [] => []
  | (k, v) :: es => nodes k ++ nodes v ++ nodesOfEntries es

end

def marked? [BEq ρ] (root : Node ρ) (a : ρ) : Option (Node ρ) :=
  (nodes root).findRev? fun n => n.anchor? == some a

abbrev Anchors := List (String × Nat)

/-- Gives a name a number: how many names have one so far. A name may get a number again. -/
def Anchors.mark (names : Anchors) (name : String) : Anchors × Nat :=
  ((name, names.length) :: names.filter (fun n => n.1 != name), names.length)

/-- Gives the anchor of a node a number, if it has one. -/
def Anchors.mark? (names : Anchors) : Option String → Anchors × Option Nat
  | none => (names, none)
  | some name => let (names, n) := names.mark name; (names, some n)

mutual

/-- Puts numbers in place of names. An alias must follow an anchor of its name. -/
def number (names : Anchors) : Node String → Option (Anchors × Node Nat)
  | aliasOf name => (names.lookup name).map fun n => (names, aliasOf n)
  | scalar a tag text plain =>
    let (names, a) := names.mark? a
    some (names, scalar a tag text plain)
  | sequence a tag items => do
    let (names, a) := names.mark? a
    let (names, items) ← numberItems names items
    return (names, sequence a tag items)
  | mapping a tag entries => do
    let (names, a) := names.mark? a
    let (names, entries) ← numberEntries names entries
    return (names, mapping a tag entries)

def numberItems (names : Anchors) : List (Node String) → Option (Anchors × List (Node Nat))
  | [] => some (names, [])
  | n :: ns => do
    let (names, n) ← number names n
    let (names, ns) ← numberItems names ns
    return (names, n :: ns)

def numberEntries (names : Anchors) :
    List (Node String × Node String) → Option (Anchors × List (Node Nat × Node Nat))
  | [] => some (names, [])
  | (k, v) :: es => do
    let (names, k) ← number names k
    let (names, v) ← number names v
    let (names, es) ← numberEntries names es
    return (names, (k, v) :: es)

end

end Node

end FileEndpoints.Yaml
