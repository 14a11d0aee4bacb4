import FileEndpoints.Json.Numeral

namespace FileEndpoints.Json

/-- A token. Literals and numerals carry the value they stand for. -/
inductive Token where
  | openArray
  | closeArray
  | openObject
  | closeObject
  | comma
  | colon
  | text (s : String)
  | scalar (v : Json)

namespace Token

/-- What a lexer is inside of. Characters read so far are kept in reverse. -/
inductive Lexer where
  | idle
  | string (done : List Char)
  | escape (done : List Char)
  /-- A string, inside the four hexadecimal digits of an escape: the leading surrogate before it if
  there is one, the value so far and the digits still missing. -/
  | hex (done : List Char) (high : Option Nat) (value missing : Nat)
  /-- A string, after the escape of a leading surrogate: a backslash must follow. -/
  | lead (done : List Char) (surrogate : Nat)
  /-- A string, after a leading surrogate and a backslash: the letter `u` must follow. -/
  | leadEscape (done : List Char) (surrogate : Nat)
  | numeral (done : List Char)
  | word (done : List Char)

def isSpace (c : Char) : Bool :=
  c = ' ' || c = '\t' || c = '\n' || c = '\r'

def isNumeralChar (c : Char) : Bool :=
  c.isDigit || c = '+' || c = '-' || c = '.' || c = 'e' || c = 'E'

def hexDigit? (c : Char) : Option Nat :=
  if '0' ≤ c ∧ c ≤ '9' then some (c.toNat - '0'.toNat)
  else if 'a' ≤ c ∧ c ≤ 'f' then some (c.toNat - 'a'.toNat + 10)
  else if 'A' ≤ c ∧ c ≤ 'F' then some (c.toNat - 'A'.toNat + 10)
  else none

def simpleEscape? : Char → Option Char
  | '"' => some '"'
  | '\\' => some '\\'
  | '/' => some '/'
  | 'b' => some '\x08'
  | 'f' => some '\x0c'
  | 'n' => some '\n'
  | 'r' => some '\r'
  | 't' => some '\t'
  | _ => none

def literal? (w : List Char) : Option Json :=
  if w = ['n', 'u', 'l', 'l'] then some .null
  else if w = ['t', 'r', 'u', 'e'] then some (.bool true)
  else if w = ['f', 'a', 'l', 's', 'e'] then some (.bool false)
  else none

def Lexer.begin (c : Char) : Option (List Token × Lexer) :=
  if isSpace c then some ([], .idle)
  else if c = '[' then some ([openArray], .idle)
  else if c = ']' then some ([closeArray], .idle)
  else if c = '\x7b' then some ([openObject], .idle)
  else if c = '\x7d' then some ([closeObject], .idle)
  else if c = ',' then some ([comma], .idle)
  else if c = ':' then some ([colon], .idle)
  else if c = '"' then some ([], .string [])
  else if c = '-' ∨ c.isDigit then some ([], .numeral [c])
  else if c.isLower then some ([], .word [c])
  else none

/-- Takes the value of an escape that is complete. A surrogate must have its partner. -/
def Lexer.closeHex (done : List Char) (high : Option Nat) (value : Nat) : Option Lexer :=
  match high with
  | none =>
    if 0xD800 ≤ value ∧ value ≤ 0xDBFF then some (.lead done value)
    else if 0xDC00 ≤ value ∧ value ≤ 0xDFFF then none
    else some (.string (Char.ofNat value :: done))
  | some high =>
    if 0xDC00 ≤ value ∧ value ≤ 0xDFFF then
      some (.string (Char.ofNat ((high - 0xD800) * 0x400 + (value - 0xDC00) + 0x10000) :: done))
    else none

/-- The tokens of a numeral or word that has ended. -/
def Lexer.close : Lexer → Option (List Token)
  | idle => some []
  | numeral done => (Numeral.read? done.reverse).map fun n => [scalar (.num n)]
  | word done => (literal? done.reverse).map fun v => [scalar v]
  | _ => none

def Lexer.step : Lexer → Char → Option (List Token × Lexer)
  | idle, c => begin c
  | string done, c =>
    if c = '"' then some ([text (String.ofList done.reverse)], idle)
    else if c = '\\' then some ([], escape done)
    else if c.toNat < 0x20 then none
    else some ([], string (c :: done))
  | escape done, c =>
    if c = 'u' then some ([], hex done none 0 4)
    else (simpleEscape? c).map fun e => ([], string (e :: done))
  | hex done high value missing, c =>
    (hexDigit? c).bind fun d =>
      let value := 16 * value + d
      if missing ≤ 1 then (closeHex done high value).map fun l => ([], l)
      else some ([], hex done high value (missing - 1))
  | lead done high, c => if c = '\\' then some ([], leadEscape done high) else none
  | leadEscape done high, c => if c = 'u' then some ([], hex done (some high) 0 4) else none
  | numeral done, c =>
    if isNumeralChar c then some ([], numeral (c :: done))
    else
      match close (numeral done), begin c with
      | some ended, some (next, l) => some (ended ++ next, l)
      | _, _ => none
  | word done, c =>
    if c.isLower then some ([], word (c :: done))
    else
      match close (word done), begin c with
      | some ended, some (next, l) => some (ended ++ next, l)
      | _, _ => none

/-- Takes characters in turn. The tokens so far are kept in reverse. -/
def Lexer.run (l : Lexer) (out : List Token) : List Char → Option (List Token)
  | [] => l.close.map fun last => (last.reverse ++ out).reverse
  | c :: s =>
    match l.step c with
    | none => none
    | some (more, next) => next.run (more.reverse ++ out) s

def ofChars? (s : List Char) : Option (List Token) :=
  Lexer.idle.run [] s

end Token

end FileEndpoints.Json
