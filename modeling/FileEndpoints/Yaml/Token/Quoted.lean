import FileEndpoints.Json.Token
import FileEndpoints.Yaml.Gap

namespace FileEndpoints.Yaml.Quoted

/-- Reads a scalar after its opening single quote. A quote in it is written twice. -/
def single (done : List Char) (gap : Gap) : List Glyph → Option (List Char × List Glyph)
  | [] => none
  | g :: rest =>
    if isGap g.char then single done (gap.push g.char) rest
    else if g.char == endChar || Glyph.isDocumentMark (g :: rest) then none
    else if g.char == '\'' then
      match rest with
      | [] => none
      | q :: rest' =>
        if q.char == '\'' then single ('\'' :: (gap.text ++ done)) .none rest'
        else some ((gap.text ++ done).reverse, q :: rest')
    else single (g.char :: (gap.text ++ done)) .none rest

def escaped? : Char → Option Char
  | '0' => some '\x00'
  | 'a' => some '\x07'
  | 'b' => some '\x08'
  | 't' => some '\t'
  | '\t' => some '\t'
  | 'n' => some '\n'
  | 'v' => some '\x0b'
  | 'f' => some '\x0c'
  | 'r' => some '\r'
  | 'e' => some '\x1b'
  | ' ' => some ' '
  | '"' => some '"'
  | '/' => some '/'
  | '\\' => some '\\'
  | 'N' => some '\u0085'
  | '_' => some '\u00a0'
  | 'L' => some '\u2028'
  | 'P' => some '\u2029'
  | _ => none

/-- The number of hexadecimal digits after the letter of an escape. -/
def hexLength? : Char → Option Nat
  | 'x' => some 2
  | 'u' => some 4
  | 'U' => some 8
  | _ => none

/-- The character of a number, unless it is a surrogate or out of range. -/
def charOf? (n : Nat) : Option Char :=
  if n.isValidChar then some (Char.ofNat n) else none

inductive Place where
  | text (gap : Gap)
  | escape
  /-- Inside the digits of an escape: the value so far and the digits still missing. -/
  | hex (value missing : Nat)

/-- Takes the character after a backslash: what it adds to the scalar, and the place after it. -/
def afterBackslash (c : Char) : Option (List Char × Place) :=
  if isBreak c then some ([], .text (.broken true []))
  else
    match hexLength? c with
    | some n => some ([], .hex 0 n)
    | none => (escaped? c).map fun e => ([e], .text .none)

def afterDigit (value missing : Nat) (c : Char) : Option (List Char × Place) :=
  (Json.Token.hexDigit? c).bind fun d =>
    let value := 16 * value + d
    if missing ≤ 1 then (charOf? value).map fun e => ([e], .text .none)
    else some ([], .hex value (missing - 1))

/-- Reads a scalar after its opening double quote. A backslash begins an escape, also of a line
break. -/
def double (done : List Char) : Place → List Glyph → Option (List Char × List Glyph)
  | _, [] => none
  | .escape, g :: rest =>
    match afterBackslash g.char with
    | none => none
    | some (more, place) => double (more ++ done) place rest
  | .hex value missing, g :: rest =>
    match afterDigit value missing g.char with
    | none => none
    | some (more, place) => double (more ++ done) place rest
  | .text gap, g :: rest =>
    if isGap g.char then double done (.text (gap.push g.char)) rest
    else if g.char == endChar || Glyph.isDocumentMark (g :: rest) then none
    else if g.char == '"' then some ((gap.text ++ done).reverse, rest)
    else if g.char == '\\' then double (gap.text ++ done) .escape rest
    else double (g.char :: (gap.text ++ done)) (.text .none) rest

end FileEndpoints.Yaml.Quoted
