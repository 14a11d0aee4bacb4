import FileEndpoints.Yaml.Token
import FileEndpoints.Yaml.Token.Block
import FileEndpoints.Yaml.Token.Quoted

namespace FileEndpoints.Yaml

structure KeySpot where
  start : Glyph
  before : Nat
  required : Bool

/-- The lexer between two tokens. Whether a scalar is a key shows only at the colon after it: until
then its place is remembered, and the tokens of a key are put there later. -/
structure Lexer where
  out : List Token := []
  /-- The number of tokens so far. -/
  count : Nat := 0
  /-- The columns of the block collections that are open, the innermost first. -/
  indents : List Nat := []
  /-- Where a key may have begun, among what has been read since the innermost open bracket. -/
  spot : Option KeySpot := none
  /-- The same for the open brackets, and for what is outside of them. -/
  outer : List (Option KeySpot) := []
  keyAllowed : Bool := true

namespace Lexer

def inFlow (l : Lexer) : Bool :=
  !l.outer.isEmpty

/-- The least column of lines inside the innermost open block collection. -/
def margin (l : Lexer) : Nat :=
  match l.indents with
  | [] => 0
  | i :: _ => i + 1

def emit (l : Lexer) (t : Token) : Lexer :=
  { l with out := t :: l.out, count := l.count + 1 }

/-- Puts a token behind the given number of tokens. -/
def emitAt (l : Lexer) (before : Nat) (t : Token) : Lexer :=
  let after := l.count - before
  { l with out := l.out.take after ++ t :: l.out.drop after, count := l.count + 1 }

/-- Gives up the place where a key may have begun. This fails if a key is required there. -/
def forgetSpot (l : Lexer) : Option Lexer :=
  if l.spot.any KeySpot.required then none else some { l with spot := none }

/-- Whether a key that began at a place can still go on: it must stay on its line and within 1024
bytes. -/
def KeySpot.reaches (k : KeySpot) (g : Glyph) : Bool :=
  k.start.line == g.line && g.index ≤ k.start.index + 1024

/-- Gives up a place if its key cannot go on. This fails if a key is required there. -/
def refreshSpot (g : Glyph) : Option KeySpot → Option (Option KeySpot)
  | none => some none
  | some k =>
    if KeySpot.reaches k g then some (some k) else if k.required then none else some none

def refresh (l : Lexer) (g : Glyph) : Option Lexer := do
  let spot ← refreshSpot g l.spot
  let outer ← l.outer.mapM (refreshSpot g)
  return { l with spot, outer }

def markSpot (l : Lexer) (g : Glyph) : Option Lexer :=
  if l.keyAllowed then
    let required := !l.inFlow && l.indents.head? == some g.column
    l.forgetSpot.map fun l => { l with spot := some { start := g, before := l.count, required } }
  else some l

/-- Opens a block collection at a column, unless the innermost one stands there or a bracket is
open. Its first token goes behind the given number of tokens. -/
def openBlock (l : Lexer) (column before : Nat) (t : Token) : Lexer :=
  if l.inFlow || column < l.margin then l
  else { l.emitAt before t with indents := column :: l.indents }

/-- Closes the innermost block collections, one for each column. -/
def closeEach (l : Lexer) : List Nat → Lexer
  | [] => l
  | _ :: columns => ({ l with indents := l.indents.drop 1 }.emit .blockEnd).closeEach columns

/-- Closes the block collections that stand further to the right than a column. -/
def closeTo (l : Lexer) (column : Nat) : Lexer :=
  if l.inFlow then l else l.closeEach (l.indents.takeWhile fun i => column < i)

def closeAll (l : Lexer) : Lexer :=
  if l.inFlow then l else l.closeEach l.indents

/-- Skips spaces, comments and line breaks. A tab is not skipped where a key may begin. -/
def skip (l : Lexer) (inComment : Bool) : List Glyph → Lexer × List Glyph
  | [] => (l, [])
  | g :: rest =>
    if isBreak g.char then { l with keyAllowed := l.keyAllowed || !l.inFlow }.skip false rest
    else if inComment && g.char != endChar then l.skip true rest
    else if g.char == ' ' || (g.char == '\ufeff' && g.column == 0) then l.skip false rest
    else if g.char == '\t' && (l.inFlow || !l.keyAllowed) then l.skip false rest
    else if g.char == '#' then l.skip true rest
    else (l, g :: rest)

def documentMark (l : Lexer) (t : Token) (gs : List Glyph) : Option (Lexer × List Glyph) := do
  let l ← l.closeAll.forgetSpot
  return ({ l with keyAllowed := false }.emit t, gs.drop 3)

def directive (l : Lexer) (gs : List Glyph) : Option (Lexer × List Glyph) := do
  let l ← l.closeAll.forgetSpot
  let (d, gs) ← readDirective (gs.drop 1)
  let gs ← Block.skipLine false gs
  return ({ l with keyAllowed := false }.emit (.directive d), gs)

def openBracket (l : Lexer) (g : Glyph) (t : Token) (rest : List Glyph) :
    Option (Lexer × List Glyph) := do
  let l ← l.markSpot g
  return ({ l with spot := none, outer := l.spot :: l.outer, keyAllowed := true }.emit t, rest)

def closeBracket (l : Lexer) (t : Token) (rest : List Glyph) : Option (Lexer × List Glyph) := do
  let l ← l.forgetSpot
  let l := match l.outer with
    | [] => l
    | spot :: outer => { l with spot, outer }
  return ({ l with keyAllowed := false }.emit t, rest)

def flowEntry (l : Lexer) (rest : List Glyph) : Option (Lexer × List Glyph) := do
  let l ← l.forgetSpot
  return ({ l with keyAllowed := true }.emit .flowEntry, rest)

def blockEntry (l : Lexer) (g : Glyph) (rest : List Glyph) : Option (Lexer × List Glyph) := do
  guard (l.inFlow ∨ l.keyAllowed)
  let l ← (l.openBlock g.column l.count .blockSequenceStart).forgetSpot
  return ({ l with keyAllowed := true }.emit .blockEntry, rest)

def explicitKey (l : Lexer) (g : Glyph) (rest : List Glyph) : Option (Lexer × List Glyph) := do
  guard (l.inFlow ∨ l.keyAllowed)
  let l ← (l.openBlock g.column l.count .blockMappingStart).forgetSpot
  return ({ l with keyAllowed := !l.inFlow }.emit .key, rest)

/-- Reads the colon before a value. What stands before it is a key if one may have begun there. -/
def value (l : Lexer) (g : Glyph) (rest : List Glyph) : Option (Lexer × List Glyph) :=
  match l.spot with
  | some k =>
    let l := (l.emitAt k.before .key).openBlock k.start.column k.before .blockMappingStart
    some ({ l with spot := none, keyAllowed := false }.emit .value, rest)
  | none => do
    guard (l.inFlow ∨ l.keyAllowed)
    let l := l.openBlock g.column l.count .blockMappingStart
    return ({ l with keyAllowed := !l.inFlow }.emit .value, rest)

/-- Reads a token at which a key may begin, but not after it. -/
def node {α : Type} (l : Lexer) (g : Glyph) (read : Option (α × List Glyph)) (token : α → Token) :
    Option (Lexer × List Glyph) := do
  let l ← l.markSpot g
  let (a, gs) ← read
  return ({ l with keyAllowed := false }.emit (token a), gs)

def blockScalar (l : Lexer) (folds : Bool) (rest : List Glyph) : Option (Lexer × List Glyph) := do
  let l ← l.forgetSpot
  let (text, gs) ← Block.read folds (l.indents.head?.getD 0) l.margin rest
  return ({ l with keyAllowed := true }.emit (.scalar (String.ofList text) false), gs)

/-- Reads a plain scalar. A key may begin in the line after it. -/
def plainScalar (l : Lexer) (g : Glyph) (gs : List Glyph) : Option (Lexer × List Glyph) := do
  let l ← l.markSpot g
  let p ← Plain.read l.inFlow l.margin [] .none gs
  return ({ l with keyAllowed := p.broken }.emit (.scalar (String.ofList p.text) true), p.rest)

/-- Whether a plain scalar may begin with a character before another one. -/
def beginsPlain (inFlow : Bool) (c next : Char) : Bool :=
  if c == '-' then !isSpace next
  else if c == '?' || c == ':' then !inFlow && !endsWord next
  else !(endsWord c || ",[]\x7b\x7d#&*!|>'\"%@\x60".toList.contains c)

def quotedToken (text : List Char) : Token :=
  .scalar (String.ofList text) false

def token (l : Lexer) (g : Glyph) (rest : List Glyph) : Option (Lexer × List Glyph) :=
  let gs := g :: rest
  let next := Glyph.ahead rest 0
  if g.column == 0 && g.char == '%' then l.directive gs
  else if g.column == 0 && Glyph.isRule '-' gs then l.documentMark .documentStart gs
  else if g.column == 0 && Glyph.isRule '.' gs then l.documentMark .documentEnd gs
  else if g.char == '[' then l.openBracket g .flowSequenceStart rest
  else if g.char == '\x7b' then l.openBracket g .flowMappingStart rest
  else if g.char == ']' then l.closeBracket .flowSequenceEnd rest
  else if g.char == '\x7d' then l.closeBracket .flowMappingEnd rest
  else if g.char == ',' then l.flowEntry rest
  else if g.char == '-' && endsWord next then l.blockEntry g rest
  else if g.char == '?' && (l.inFlow || endsWord next) then l.explicitKey g rest
  else if g.char == ':' && (l.inFlow || endsWord next) then l.value g rest
  else if g.char == '*' then l.node g (readName rest) .aliasOf
  else if g.char == '&' then l.node g (readName rest) .anchor
  else if g.char == '!' then l.node g (readTag l.inFlow gs) .tag
  else if g.char == '|' && !l.inFlow then l.blockScalar false rest
  else if g.char == '>' && !l.inFlow then l.blockScalar true rest
  else if g.char == '\'' then l.node g (Quoted.single [] .none rest) quotedToken
  else if g.char == '"' then l.node g (Quoted.double [] (.text .none) rest) quotedToken
  else if beginsPlain l.inFlow g.char next then l.plainScalar g gs
  else none

def finish (l : Lexer) : Option (List Token) :=
  l.closeAll.forgetSpot.map fun l => l.out.reverse

/-- Reads at most as many tokens as the bound says, up to the end of the text. -/
def run (l : Lexer) (gs : List Glyph) : Nat → Option (List Token)
  | 0 => none
  | bound + 1 =>
    match l.skip false gs with
    | (l, []) => l.finish
    | (l, g :: rest) => do
      let l := (← l.refresh g).closeTo g.column
      if g.char == endChar then l.finish
      else
        let (l, gs) ← l.token g rest
        l.run gs bound

end Lexer

def Token.ofChars? (s : List Char) : Option (List Token) := do
  let gs ← Glyph.ofChars? s
  Lexer.run {} gs (gs.length + 1)

end FileEndpoints.Yaml
