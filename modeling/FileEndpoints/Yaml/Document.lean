import FileEndpoints.Yaml.Node
import FileEndpoints.Yaml.Token.Lexer

namespace FileEndpoints.Yaml

abbrev Handles := List (String × Bytes)

def Handles.standard : Handles :=
  [("!", Text.encode "!"), ("!!", (Tag.core "").bytes)]

/-- The full text of a tag. The handle must be known. -/
def Handles.resolve? (handles : Handles) (t : TagName) : Option Tag :=
  if t.handle = "" then some ⟨t.suffix⟩
  else (handles.lookup t.handle).map fun stem => ⟨stem ++ t.suffix⟩

structure Properties where
  anchor : Option String := none
  tag : Option Tag := none

namespace Properties

/-- Reads an anchor and a tag, in either order, as far as they are there. -/
def read? (handles : Handles) : List Token → Option (Properties × List Token)
  | .anchor a :: .tag t :: ts => (handles.resolve? t).map fun tag => ({ anchor := a, tag }, ts)
  | .tag t :: .anchor a :: ts => (handles.resolve? t).map fun tag => ({ anchor := a, tag }, ts)
  | .anchor a :: ts => some ({ anchor := a }, ts)
  | .tag t :: ts => (handles.resolve? t).map fun tag => ({ tag }, ts)
  | ts => some ({}, ts)

end Properties

/-- Where a node stands, as far as that limits its form. -/
inductive NodePlace where
  | flow
  | block
  /-- In a block mapping, where the items of a sequence need no indentation. -/
  | blockMember
deriving DecidableEq, Repr

namespace Node

/-- Whether tokens begin with one of a kind, or there are none. -/
def headIs (p : Token → Bool) : List Token → Bool
  | [] => false
  | t :: _ => p t

def endsBlockItem (t : Token) : Bool :=
  t == .blockEntry || t == .blockEnd

def endsBareItem (t : Token) : Bool :=
  t == .blockEntry || t == .key || t == .value || t == .blockEnd

def endsBlockMember (t : Token) : Bool :=
  t == .key || t == .value || t == .blockEnd

def endsPairKey (t : Token) : Bool :=
  t == .value || t == .flowEntry || t == .flowSequenceEnd

def endsPairValue (t : Token) : Bool :=
  t == .flowEntry || t == .flowSequenceEnd

def endsFlowKey (t : Token) : Bool :=
  t == .value || t == .flowEntry || t == .flowMappingEnd

def endsFlowValue (t : Token) : Bool :=
  t == .flowEntry || t == .flowMappingEnd

/-- The tokens after a comma, which all items but the first need. -/
def afterComma (first : Bool) (ts : List Token) : Option (List Token) :=
  if first then some ts
  else
    match ts with
    | .flowEntry :: ts => some ts
    | _ => none

variable (handles : Handles)

mutual

/-- Reads a node from the tokens ahead, and gives those that it leaves. The bound is counted down
with every call, here and in the readers below. -/
def read (place : NodePlace) (ts : List Token) : Nat → Option (Node String × List Token)
  | 0 => none
  | bound + 1 =>
    match ts with
    | .aliasOf name :: ts => some (.aliasOf name, ts)
    | ts => do
      let (p, ts) ← Properties.read? handles ts
      readContent place p ts bound

/-- Reads a node after its properties. A node with properties may be blank. -/
def readContent (place : NodePlace) (p : Properties) (ts : List Token) :
    Nat → Option (Node String × List Token)
  | 0 => none
  | bound + 1 =>
    match ts, place with
    | .blockEntry :: _, .blockMember => do
      let (items, ts) ← readBareItems ts bound
      return (.sequence p.anchor p.tag items, ts)
    | .scalar text plain :: ts, _ => some (.scalar p.anchor p.tag text plain, ts)
    | .flowSequenceStart :: ts, _ => do
      let (items, ts) ← readFlowItems true ts bound
      return (.sequence p.anchor p.tag items, ts)
    | .flowMappingStart :: ts, _ => do
      let (entries, ts) ← readFlowEntries true ts bound
      return (.mapping p.anchor p.tag entries, ts)
    | .blockSequenceStart :: ts, .block | .blockSequenceStart :: ts, .blockMember => do
      let (items, ts) ← readBlockItems ts bound
      return (.sequence p.anchor p.tag items, ts)
    | .blockMappingStart :: ts, .block | .blockMappingStart :: ts, .blockMember => do
      let (entries, ts) ← readBlockEntries ts bound
      return (.mapping p.anchor p.tag entries, ts)
    | ts, _ =>
      if p.anchor.isSome || p.tag.isSome then some (.scalar p.anchor p.tag "" true, ts) else none

/-- Reads a node, or a blank one if the next token ends its place. -/
def readOr (isEnd : Token → Bool) (place : NodePlace) (ts : List Token) :
    Nat → Option (Node String × List Token)
  | 0 => none
  | bound + 1 => if headIs isEnd ts then some (blank, ts) else read place ts bound

def readBlockItems (ts : List Token) : Nat → Option (List (Node String) × List Token)
  | 0 => none
  | bound + 1 =>
    match ts with
    | .blockEntry :: ts => do
      let (item, ts) ← readOr endsBlockItem .block ts bound
      let (items, ts) ← readBlockItems ts bound
      return (item :: items, ts)
    | .blockEnd :: ts => some ([], ts)
    | _ => none

/-- Reads the items of a block sequence that is not indented. -/
def readBareItems (ts : List Token) : Nat → Option (List (Node String) × List Token)
  | 0 => none
  | bound + 1 =>
    match ts with
    | .blockEntry :: ts => do
      let (item, ts) ← readOr endsBareItem .block ts bound
      let (items, ts) ← readBareItems ts bound
      return (item :: items, ts)
    | ts => some ([], ts)

def readBlockEntries (ts : List Token) :
    Nat → Option (List (Node String × Node String) × List Token)
  | 0 => none
  | bound + 1 =>
    match ts with
    | .blockEnd :: ts => some ([], ts)
    | .key :: ts => do
      let (k, ts) ← readOr endsBlockMember .blockMember ts bound
      let (v, ts) ← readBlockValue ts bound
      let (entries, ts) ← readBlockEntries ts bound
      return ((k, v) :: entries, ts)
    | _ => none

/-- Reads the value of a block mapping's entry, which may be missing. -/
def readBlockValue (ts : List Token) : Nat → Option (Node String × List Token)
  | 0 => none
  | bound + 1 =>
    match ts with
    | .value :: ts => readOr endsBlockMember .blockMember ts bound
    | ts => some (blank, ts)

/-- Reads the items of a sequence in brackets. An item may be a pair, which is a mapping of one
entry. -/
def readFlowItems (first : Bool) (ts : List Token) :
    Nat → Option (List (Node String) × List Token)
  | 0 => none
  | bound + 1 =>
    match ts with
    | .flowSequenceEnd :: ts => some ([], ts)
    | ts => do
      let ts ← afterComma first ts
      match ts with
      | .flowSequenceEnd :: ts => some ([], ts)
      | .key :: ts => do
        let (pair, ts) ← readPair ts bound
        let (items, ts) ← readFlowItems false ts bound
        return (pair :: items, ts)
      | ts => do
        let (item, ts) ← read .flow ts bound
        let (items, ts) ← readFlowItems false ts bound
        return (item :: items, ts)

/-- Reads a pair after the token of its key. The token that ends a blank key is dropped with it. -/
def readPair (ts : List Token) : Nat → Option (Node String × List Token)
  | 0 => none
  | bound + 1 => do
    let (k, ts) ← if headIs endsPairKey ts then some (blank, ts.drop 1) else read .flow ts bound
    let (v, ts) ← match ts with
      | .value :: ts => readOr endsPairValue .flow ts bound
      | ts => some (blank, ts)
    return (.mapping none none [(k, v)], ts)

def readFlowEntries (first : Bool) (ts : List Token) :
    Nat → Option (List (Node String × Node String) × List Token)
  | 0 => none
  | bound + 1 =>
    match ts with
    | .flowMappingEnd :: ts => some ([], ts)
    | ts => do
      let ts ← afterComma first ts
      match ts with
      | .flowMappingEnd :: ts => some ([], ts)
      | .key :: ts => do
        let (k, ts) ← readOr endsFlowKey .flow ts bound
        let (v, ts) ← match ts with
          | .value :: ts => readOr endsFlowValue .flow ts bound
          | ts => some (blank, ts)
        let (entries, ts) ← readFlowEntries false ts bound
        return ((k, v) :: entries, ts)
      | ts => do
        let (k, ts) ← read .flow ts bound
        let (entries, ts) ← readFlowEntries false ts bound
        return ((k, blank) :: entries, ts)

end

/-- Reads the directives in front of a document: what handles stand for. The version must be one of
two, and nothing may be said twice. -/
def readDirectives (versioned : Bool) (defined : Handles) :
    List Token → Option (Handles × List Token)
  | .directive (.version major minor) :: ts =>
    if versioned || major != 1 || !(minor == 1 || minor == 2) then none
    else readDirectives true defined ts
  | .directive (.tag handle stem) :: ts =>
    if defined.any fun h => h.1 == handle then none
    else readDirectives versioned ((handle, stem) :: defined) ts
  | ts => some (defined ++ Handles.standard, ts)

/-- Whether a token that begins or ends a document, or none at all, lies ahead. -/
def isOutside : List Token → Bool
  | [] | .directive _ :: _ | .documentStart :: _ | .documentEnd :: _ => true
  | _ => false

/-- A bound that is high enough for reading tokens. -/
def enough (ts : List Token) : Nat :=
  5 * ts.length + 8

/-- Reads a document after its directives. Without any, the mark of its beginning may be missing. -/
def readDocument (marked : Bool) (handles : Handles) :
    List Token → Option (Node String × List Token)
  | .documentStart :: ts =>
    if isOutside ts then some (blank, ts) else read handles .block ts (enough ts)
  | ts => if marked then none else read handles .block ts (enough ts)

/-- The document of a text, if its tokens are those of one document or of none. -/
def ofTokens? (ts : List Token) : Option (Option (Node String)) :=
  match ts with
  | [] => some none
  | ts => do
    let (handles, content) ← readDirectives false [] ts
    let (root, rest) ← readDocument (headIs (· matches .directive _) ts) handles content
    guard (rest.all (· == .documentEnd))
    return some root

end Node

end FileEndpoints.Yaml
