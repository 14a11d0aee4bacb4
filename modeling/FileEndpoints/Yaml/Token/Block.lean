import FileEndpoints.Yaml.Glyph

namespace FileEndpoints.Yaml

/-- What becomes of the line breaks at the end of a block scalar. -/
inductive Chomping where
  | strip
  | clip
  | keep
deriving DecidableEq, Repr

/-- A block scalar that is being read: lines under a header, indented more than what they belong to.
Texts are in reverse. -/
structure Block where
  done : List Char := []
  lead : List Char := []
  more : List Char := []
  spaced : Bool := false

namespace Block

/-- The chomping that a character of the header stands for. -/
def chomping? : Char → Option Chomping
  | '+' => some .keep
  | '-' => some .strip
  | _ => none

/-- The indentation that a character of the header stands for, if it is a digit. -/
def increment? (c : Char) : Option Nat :=
  if c.isDigit then some (c.toNat - '0'.toNat) else none

/-- Reads the two marks of a header, which may come in either order. Zero indentation is refused. -/
def marks (gs : List Glyph) : Option (Chomping × Option Nat × List Glyph) :=
  let first := Glyph.ahead gs 0
  let second := Glyph.ahead gs 1
  let (chomping, increment, used) :=
    match chomping? first, increment? first with
    | some c, _ => match increment? second with
      | some n => (c, some n, 2)
      | none => (c, none, 1)
    | none, some n => match chomping? second with
      | some c => (c, some n, 2)
      | none => (.clip, some n, 1)
    | none, none => (.clip, none, 0)
  if increment = some 0 then none else some (chomping, increment, gs.drop used)

/-- Skips the rest of a line that holds nothing but spaces and a comment. -/
def skipLine (inComment : Bool) : List Glyph → Option (List Glyph)
  | [] => some []
  | g :: rest =>
    if isBreak g.char then some rest
    else if g.char == endChar then some (g :: rest)
    else if inComment || isSpace g.char then skipLine inComment rest
    else if g.char == '#' then skipLine true rest
    else none

/-- Reads the empty lines before the first line, and the widest indentation among all of them. A tab
must not stand in the indentation. -/
def leadingLines (more : List Char) (widest : Nat) :
    List Glyph → Option (List Char × Nat × List Glyph)
  | [] => some (more, widest, [])
  | g :: rest =>
    if g.char == ' ' then leadingLines more widest rest
    else if g.char == '\t' then none
    else
      let widest := max widest g.column
      if isBreak g.char then leadingLines (g.char :: more) widest rest
      else some (more, widest, g :: rest)

/-- The scalar at the first character of a further line. A break is folded between two lines that do
not begin with a space. -/
def beginLine (folds : Bool) (b : Block) (c : Char) : Block :=
  let joined :=
    if folds && b.lead == ['\n'] && !b.spaced && !isSpace c then
      if b.more.isEmpty then ' ' :: b.done else b.done
    else b.lead ++ b.done
  { done := c :: (b.more ++ joined), spaced := isSpace c }

/-- Reads lines of a given indentation up to one that has less. -/
def lines (folds : Bool) (indent : Nat) (b : Block) (inLine : Bool) :
    List Glyph → Option (Block × List Glyph)
  | [] => some (b, [])
  | g :: rest =>
    if inLine then
      if isBreak g.char then lines folds indent { b with lead := [g.char] } false rest
      else if g.char == endChar then some (b, g :: rest)
      else lines folds indent { b with done := g.char :: b.done } true rest
    else if g.char == ' ' && g.column < indent then lines folds indent b false rest
    else if g.char == '\t' && g.column < indent then none
    else if isBreak g.char then lines folds indent { b with more := g.char :: b.more } false rest
    else if g.column == indent && g.char != endChar then
      lines folds indent (b.beginLine folds g.char) true rest
    else some (b, g :: rest)

def text (b : Block) : Chomping → List Char
  | .strip => b.done.reverse
  | .clip => (b.lead ++ b.done).reverse
  | .keep => (b.more ++ b.lead ++ b.done).reverse

/-- Reads a block scalar after the character that announces it. The margin is the least column of
its lines, unless the header says how many columns they stand beyond `base`. -/
def read (folds : Bool) (base margin : Nat) (gs : List Glyph) :
    Option (List Char × List Glyph) := do
  let (chomping, increment, gs) ← marks gs
  let gs ← skipLine false gs
  let (b, gs) ← match increment with
    | some n => lines folds (base + n) {} false gs
    | none => do
      let (more, widest, gs) ← leadingLines [] 0 gs
      lines folds (max 1 (max margin widest)) { more } false gs
  return (b.text chomping, gs)

end Block

end FileEndpoints.Yaml
