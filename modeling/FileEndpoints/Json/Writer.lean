import FileEndpoints.Decimal.Layout
import FileEndpoints.Json.Basic

namespace FileEndpoints.Json

def hexDigit (n : Nat) : Char :=
  Nat.digitChar (n % 16)

/-- A character of a string. The quote, the backslash and those below U+0020 are escaped. -/
def escapeChar (c : Char) : List Char :=
  if c = '"' then ['\\', '"']
  else if c = '\\' then ['\\', '\\']
  else if c = '\x08' then ['\\', 'b']
  else if c = '\x0c' then ['\\', 'f']
  else if c = '\n' then ['\\', 'n']
  else if c = '\r' then ['\\', 'r']
  else if c = '\t' then ['\\', 't']
  else if c.toNat < 0x20 then ['\\', 'u', '0', '0', hexDigit (c.toNat / 16), hexDigit c.toNat]
  else [c]

def quoteChars (s : List Char) : List Char :=
  '"' :: s.flatMap escapeChar ++ ['"']

def intChars (n : Int) : List Char :=
  if n < 0 then '-' :: Nat.toDigits 10 n.natAbs else Nat.toDigits 10 n.natAbs

/-- Doubles in JSON: a plus sign stands before a positive exponent. -/
def doubleLayout : Decimal.Layout := { plusSign := true }

/-- A number. A double that is not finite has no numeral and is written as null. -/
def Number.chars : Number → List Char
  | int n => intChars n
  | float x => if x.isFinite then doubleLayout.write x else ['n', 'u', 'l', 'l']

mutual

def chars : Json → List Char
  | null => ['n', 'u', 'l', 'l']
  | bool true => ['t', 'r', 'u', 'e']
  | bool false => ['f', 'a', 'l', 's', 'e']
  | num n => n.chars
  | str s => quoteChars s.toList
  | arr [] => ['[', ']']
  | arr (v :: vs) => '[' :: chars v ++ itemChars vs
  | obj [] => ['\x7b', '\x7d']
  | obj ((name, v) :: ms) => '\x7b' :: quoteChars name.toList ++ ':' :: chars v ++ memberChars ms

def itemChars : List Json → List Char
  | [] => [']']
  | v :: vs => ',' :: chars v ++ itemChars vs

def memberChars : List (String × Json) → List Char
  | [] => ['\x7d']
  | (name, v) :: ms => ',' :: quoteChars name.toList ++ ':' :: chars v ++ memberChars ms

end

/-- The text of a value without blanks, with members in the order in which objects list them. -/
def render (v : Json) : String :=
  String.ofList v.chars

def newline (level : Nat) : List Char :=
  '\n' :: List.replicate (2 * level) ' '

mutual

/-- The characters of a value spread over lines, at a level of indentation. -/
def indentedChars (level : Nat) : Json → List Char
  | arr [] => ['[', ']']
  | arr (v :: vs) =>
    '[' :: newline (level + 1) ++ indentedChars (level + 1) v ++ indentedItems level vs
  | obj [] => ['\x7b', '\x7d']
  | obj ((name, v) :: ms) =>
    '\x7b' :: newline (level + 1) ++ quoteChars name.toList ++ ':' :: ' ' ::
      indentedChars (level + 1) v ++ indentedMembers level ms
  | v => chars v

/-- The further items of an array spread over lines. -/
def indentedItems (level : Nat) : List Json → List Char
  | [] => newline level ++ [']']
  | v :: vs => ',' :: newline (level + 1) ++ indentedChars (level + 1) v ++ indentedItems level vs

/-- The further members of an object spread over lines. -/
def indentedMembers (level : Nat) : List (String × Json) → List Char
  | [] => newline level ++ ['\x7d']
  | (name, v) :: ms =>
    ',' :: newline (level + 1) ++ quoteChars name.toList ++ ':' :: ' ' ::
      indentedChars (level + 1) v ++ indentedMembers level ms

end

/-- The text of a value spread over lines, two blanks for each level. -/
def renderIndented (v : Json) : String :=
  String.ofList (v.indentedChars 0)

end FileEndpoints.Json
