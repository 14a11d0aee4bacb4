import FileEndpoints.Json.Writer
import FileEndpoints.Yaml.Scalar

namespace FileEndpoints.Yaml

inductive ScalarStyle where
  | plain
  | single
  | double
  | literal
deriving DecidableEq, Repr

namespace ScalarStyle

/-- The characters that are line breaks in any style. -/
def isLineBreak (c : Char) : Bool :=
  c == '\n' || c == '\r' || c == '\u0085' || c == '\u2028' || c == '\u2029'

def isWhite (c : Char) : Bool :=
  c == ' ' || c == '\t' || isLineBreak c

/-- The characters that can be written without an escape. -/
def isPrintable (c : Char) : Bool :=
  let n := c.toNat
  n == 0x0A || (0x20 ≤ n && n ≤ 0x7E) || (0xA0 ≤ n && n ≤ 0xFFFD && n != 0xFEFF) || 0x10000 ≤ n

/-- Whether two neighbours in a text have properties. -/
def hasPair (p q : Char → Bool) (s : List Char) : Bool :=
  (s.zip (s.drop 1)).any fun (a, b) => p a && q b

/-- Whether a character is followed by a white one, or by nothing, in a text. -/
def hasBeforeWhite (c : Char) (s : List Char) : Bool :=
  hasPair (· == c) isWhite s || s.getLast? == some c

/-- The characters that mean something at the beginning of a scalar. -/
def isIndicator (c : Char) : Bool :=
  "#,[]\x7b\x7d&*!|>'\"%@\x60".toList.contains c

/-- Whether the beginning of a text means something. -/
def beginsSpecially (s : List Char) : Bool :=
  s.head?.any isIndicator || ['-', '-', '-'].isPrefixOf s || ['.', '.', '.'].isPrefixOf s ||
    ['?', '-'].any fun c => s.head? == some c && (s.drop 1).head?.all isWhite

/-- Whether something in a text would be taken for a key or a comment. -/
def hasMarks (s : List Char) : Bool :=
  hasBeforeWhite ':' s || hasPair isWhite (· == '#') s

/-- Whether the first or the last character of a text has a property. -/
def hasOuter (p : Char → Bool) (s : List Char) : Bool :=
  s.head?.any p || s.getLast?.any p

def allowsPlain (s : List Char) : Bool :=
  s.all (fun c => isPrintable c && !isLineBreak c) && !hasOuter (· == ' ') s &&
    !beginsSpecially s && !hasMarks s

/-- Whether a text can be written in single quotes. -/
def allowsSingle (s : List Char) : Bool :=
  s.all isPrintable && !hasPair isLineBreak (· == ' ') s && !hasPair (· == ' ') isLineBreak s

/-- Whether a text can be written as lines under a header. -/
def allowsLiteral (s : List Char) : Bool :=
  s.all isPrintable && !hasPair (· == ' ') isLineBreak s && s.getLast? != some ' '

/-- Whether a text without quotes could be taken for something else, also digits that are not a
number. -/
def isAmbiguous (s : String) : Bool :=
  !(Look.ofString s matches .text) || Look.isPadded s.toList

/-- The style in which a text is written: without quotes if it then reads back as itself, as lines
if it has line feeds and that is possible, and in quotes of the simplest kind otherwise. -/
def ofString (s : String) : ScalarStyle :=
  let cs := s.toList
  if cs.contains '\n' then if allowsLiteral cs then literal else double
  else if !isAmbiguous s && allowsPlain cs then plain
  else if allowsSingle cs then single
  else double

end ScalarStyle

open ScalarStyle (isLineBreak isPrintable)

def margin (column : Nat) : List Char :=
  List.replicate column ' '

/-- A text in which every line after a break is indented, unless it is empty. -/
def indentLines (column : Nat) (broken : Bool) : List Char → List Char
  | [] => []
  | c :: s =>
    if isLineBreak c then c :: indentLines column true s
    else (if broken then margin column else []) ++ c :: indentLines column false s

def hexDigits (width n : Nat) : List Char :=
  let digits := (Nat.toDigits 16 n).map Char.toUpper
  List.replicate (width - digits.length) '0' ++ digits

def escapeLetters : List (Char × Char) :=
  [('\x00', '0'), ('\x07', 'a'), ('\x08', 'b'), ('\t', 't'), ('\n', 'n'), ('\x0b', 'v'),
    ('\x0c', 'f'), ('\r', 'r'), ('\x1b', 'e'), ('"', '"'), ('\\', '\\'), ('\u0085', 'N'),
    ('\u00a0', '_'), ('\u2028', 'L'), ('\u2029', 'P')]

def escapeChar (c : Char) : List Char :=
  if isPrintable c && !isLineBreak c && c != '"' && c != '\\' then [c]
  else
    match escapeLetters.lookup c with
    | some e => ['\\', e]
    | none =>
      let n := c.toNat
      if n ≤ 0xFF then '\\' :: 'x' :: hexDigits 2 n else '\\' :: 'u' :: hexDigits 4 n

/-- The header of a text that is written as lines: whether its first line shows the indentation, and
what becomes of the breaks at its end. -/
def literalHeader (s : List Char) : List Char :=
  let hint := if s.head?.any fun c => c == ' ' || isLineBreak c then ['2'] else []
  let chomping := match s.reverse with
    | [] => ['-']
    | [c] => if isLineBreak c then ['+'] else ['-']
    | c :: d :: _ => if !isLineBreak c then ['-'] else if isLineBreak d then ['+'] else []
  '|' :: (hint ++ chomping)

/-- A text as a scalar with its line end. Further lines begin at a column. -/
def scalarLine (column : Nat) (s : String) : List Char :=
  let cs := s.toList
  match ScalarStyle.ofString s with
  | .plain => cs ++ ['\n']
  | .single =>
    let doubled := cs.flatMap fun c => if c == '\'' then ['\'', '\''] else [c]
    '\'' :: indentLines column false (doubled ++ ['\'']) ++ ['\n']
  | .double => '"' :: cs.flatMap escapeChar ++ ['"', '\n']
  | .literal =>
    literalHeader cs ++ '\n' :: indentLines column true cs ++
      if cs.getLast?.any isLineBreak then [] else ['\n']

end FileEndpoints.Yaml
