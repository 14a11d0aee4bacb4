import FileEndpoints.Json.Token
import FileEndpoints.Yaml.Tag
import FileEndpoints.Yaml.Token.Plain

namespace FileEndpoints.Yaml

/-- A tag as it is written: a handle and a suffix. A tag in angle brackets has an empty handle. -/
structure TagName where
  handle : String
  suffix : Bytes
deriving DecidableEq, Repr

/-- What a line that begins with a percent sign tells the reader. -/
inductive Directive where
  | version (major minor : Nat)
  | tag (handle : String) (stem : Bytes)
deriving DecidableEq, Repr

/-- Splits off the glyphs in front whose characters have a property. -/
def spanChars (p : Char → Bool) (gs : List Glyph) : List Char × List Glyph :=
  ((gs.takeWhile fun g => p g.char).map Glyph.char, gs.dropWhile fun g => p g.char)

def dropSpaces (gs : List Glyph) : List Glyph :=
  gs.dropWhile fun g => isSpace g.char

/-- Reads the name of an anchor or alias. It ends at a gap or at one of a few punctuation marks. -/
def readName (gs : List Glyph) : Option (String × List Glyph) :=
  let (name, rest) := spanChars isNameChar gs
  let next := Glyph.ahead rest 0
  if name.isEmpty then none
  else if endsWord next || "?:,]\x7d%@\x60".toList.contains next then
    some (String.ofList name, rest)
  else none

/-- The characters of a tag, apart from percent signs. Commas and brackets may only stand in angle
brackets. -/
def isTagChar (inAngles : Bool) (c : Char) : Bool :=
  isNameChar c || ";/?:@&=+$.!~*'()".toList.contains c ||
    (inAngles && (c == ',' || c == '[' || c == ']'))

/-- The byte that a percent sign and two digits stand for. -/
def percentByte? (gs : List Glyph) : Option Nat := do
  guard (Glyph.ahead gs 0 = '%')
  let high ← Json.Token.hexDigit? (Glyph.ahead gs 1)
  let low ← Json.Token.hexDigit? (Glyph.ahead gs 2)
  return 16 * high + low

/-- How many bytes follow the first byte of a sequence. -/
def tailLength? (b : Nat) : Option Nat :=
  if b < 0x80 then some 0
  else if b / 0x20 = 6 then some 1
  else if b / 0x10 = 14 then some 2
  else if b / 0x08 = 30 then some 3
  else none

/-- Reads a number of bytes that go on with a sequence. -/
def percentTail (gs : List Glyph) : Nat → Option (Bytes × List Glyph)
  | 0 => some ([], gs)
  | n + 1 => do
    let b ← percentByte? gs
    guard (b / 0x40 = 2)
    let (bs, gs) ← percentTail (gs.drop 3) n
    return (UInt8.ofNat b :: bs, gs)

/-- Reads a sequence of bytes that are written as percent signs and digits. The sequence must be as
long as its first byte says, but need not be a character. -/
def percentBytes (gs : List Glyph) : Option (Bytes × List Glyph) := do
  let b ← percentByte? gs
  let (bs, gs) ← percentTail (gs.drop 3) (← tailLength? b)
  return (UInt8.ofNat b :: bs, gs)

/-- Reads as much of a tag as there is, in at most as many steps as the bound says. What is known of
it is reversed. -/
def tagBytes (inAngles : Bool) (done : Bytes) (gs : List Glyph) :
    Nat → Option (Bytes × List Glyph)
  | 0 => some (done.reverse, gs)
  | bound + 1 =>
    if Glyph.ahead gs 0 == '%' then do
      let (bs, rest) ← percentBytes gs
      tagBytes inAngles (bs.reverse ++ done) rest bound
    else
      match gs with
      | [] => some (done.reverse, [])
      | g :: rest =>
        if isTagChar inAngles g.char then
          tagBytes inAngles (UInt8.ofNat g.char.toNat :: done) rest bound
        else some (done.reverse, g :: rest)

/-- Reads what is left of a tag after the characters that are known. There must be something. -/
def readSuffix (inAngles : Bool) (known : List Char) (gs : List Glyph) :
    Option (Bytes × List Glyph) := do
  let (suffix, rest) ← tagBytes inAngles (Text.encode (String.ofList known)).reverse gs gs.length
  guard (suffix ≠ [])
  return (Tag.untilZero suffix, rest)

/-- Reads an exclamation mark, a name and a further exclamation mark, if there is one. -/
def readHandle (gs : List Glyph) : Option (List Char × List Glyph) :=
  if Glyph.ahead gs 0 != '!' then none
  else
    let (name, rest) := spanChars isNameChar (gs.drop 1)
    if Glyph.ahead rest 0 == '!' then some ('!' :: name ++ ['!'], rest.drop 1)
    else some ('!' :: name, rest)

/-- Whether what has been read as a handle is one: it begins and ends with an exclamation mark. -/
def isHandle (s : List Char) : Bool :=
  1 < s.length && s.getLast? == some '!'

/-- Reads a tag in angle brackets, after the opening one. -/
def readAngleTag (gs : List Glyph) : Option (TagName × List Glyph) := do
  let (suffix, rest) ← readSuffix true [] gs
  guard (Glyph.ahead rest 0 = '>')
  return (⟨"", suffix⟩, rest.drop 1)

/-- Reads a tag that begins with an exclamation mark. One alone is a tag without a handle. -/
def readShortTag (gs : List Glyph) : Option (TagName × List Glyph) := do
  let (handle, rest) ← readHandle gs
  if isHandle handle then
    let (suffix, rest) ← readSuffix false [] rest
    return (⟨String.ofList handle, suffix⟩, rest)
  else
    let (whole, rest) ← readSuffix false handle rest
    return (if whole.length = 1 then ⟨"", whole⟩ else ⟨"!", whole.drop 1⟩, rest)

/-- Reads a tag. A gap must follow, or inside brackets a comma. -/
def readTag (inFlow : Bool) (gs : List Glyph) : Option (TagName × List Glyph) := do
  let (tag, rest) ←
    if Glyph.ahead gs 1 == '<' then readAngleTag (gs.drop 2) else readShortTag gs
  let next := Glyph.ahead rest 0
  guard (endsWord next ∨ (inFlow ∧ next = ','))
  return (tag, rest)

def readVersionPart (gs : List Glyph) : Option (Nat × List Glyph) := do
  let (digits, rest) := spanChars Char.isDigit gs
  guard (digits.length ≤ 9)
  let n ← Text.natOfDigits? digits
  return (n, rest)

def readVersion (gs : List Glyph) : Option (Directive × List Glyph) := do
  let (major, gs) ← readVersionPart (dropSpaces gs)
  guard (Glyph.ahead gs 0 = '.')
  let (minor, gs) ← readVersionPart (gs.drop 1)
  return (.version major minor, gs)

def readTagDirective (gs : List Glyph) : Option (Directive × List Glyph) := do
  let (handle, gs) ← readHandle (dropSpaces gs)
  guard (isHandle handle ∨ handle = ['!'])
  guard (isSpace (Glyph.ahead gs 0))
  let (stem, gs) ← readSuffix true [] (dropSpaces gs)
  guard (endsWord (Glyph.ahead gs 0))
  return (.tag (String.ofList handle) stem, gs)

def readDirective (gs : List Glyph) : Option (Directive × List Glyph) :=
  let (name, rest) := spanChars isNameChar gs
  if !endsWord (Glyph.ahead rest 0) then none
  else if name = "YAML".toList then readVersion rest
  else if name = "TAG".toList then readTagDirective rest
  else none

end FileEndpoints.Yaml
