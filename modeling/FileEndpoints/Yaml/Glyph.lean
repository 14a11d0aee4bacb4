namespace FileEndpoints.Yaml

/-- A character and its place: its line and column, counted in characters, and the bytes before it.
Every line break is one glyph, and the text ends with a glyph of its own. -/
structure Glyph where
  char : Char
  index : Nat
  line : Nat
  column : Nat
deriving DecidableEq, Repr

/-- The character of the glyph after the last one. It cannot stand in a text. -/
def endChar : Char := '\x00'

def isAllowed (c : Char) : Bool :=
  let n := c.toNat
  n == 0x09 || n == 0x0A || n == 0x0D || (0x20 ≤ n && n ≤ 0x7E) || n == 0x85 ||
    (0xA0 ≤ n && n ≤ 0xFFFD) || 0x10000 ≤ n

def isSpace (c : Char) : Bool :=
  c == ' ' || c == '\t'

def isBreak (c : Char) : Bool :=
  c == '\n' || c == '\u2028' || c == '\u2029'

def isGap (c : Char) : Bool :=
  isSpace c || isBreak c

/-- Whether nothing but a gap or the end of the text begins with a character. -/
def endsWord (c : Char) : Bool :=
  isGap c || c == endChar

/-- Letters, digits, underscore and hyphen, all of ASCII: the characters of names. -/
def isNameChar (c : Char) : Bool :=
  c.isAlphanum || c == '_' || c == '-'

namespace Glyph

/-- The glyphs of a text from a place on. Carriage return, line feed, both together and the
next-line character all become the same break. -/
def place (index line column : Nat) : List Char → List Glyph
  | [] => [⟨endChar, index, line, column⟩]
  | '\r' :: '\n' :: s => ⟨'\n', index, line, column⟩ :: place (index + 2) (line + 1) 0 s
  | c :: s =>
    let next := index + c.utf8Size
    if c == '\r' || c == '\u0085' then ⟨'\n', index, line, column⟩ :: place next (line + 1) 0 s
    else if isBreak c then ⟨c, index, line, column⟩ :: place next (line + 1) 0 s
    else ⟨c, index, line, column⟩ :: place next line (column + 1) s

/-- The glyphs of a text, if all its characters are allowed. -/
def ofChars? (s : List Char) : Option (List Glyph) :=
  if s.all isAllowed then some (place 0 0 0 s) else none

def ahead (gs : List Glyph) (distance : Nat) : Char :=
  match gs[distance]? with
  | some g => g.char
  | none => endChar

/-- Whether a line that begins here begins with three of a character and a gap. -/
def isRule (c : Char) (gs : List Glyph) : Bool :=
  ahead gs 0 == c && ahead gs 1 == c && ahead gs 2 == c && endsWord (ahead gs 3)

def isDocumentMark (gs : List Glyph) : Bool :=
  (gs.head?.any fun g => g.column == 0) && (isRule '-' gs || isRule '.' gs)

end Glyph

end FileEndpoints.Yaml
