import FileEndpoints.Decimal.Numeral
import FileEndpoints.Json.Token
import FileEndpoints.Yaml.Tag

namespace FileEndpoints.Yaml

/-- What a plain scalar looks like: null, a truth value, a number or its own text, the first that
fits. -/
inductive Look where
  | null
  | bool (b : Bool)
  | int (n : Int)
  | float (x : Float)
  | text

namespace Look

def isNull (s : String) : Bool :=
  ["null", "Null", "NULL", "~"].contains s

def bool? (s : String) : Option Bool :=
  if ["true", "True", "TRUE"].contains s then some true
  else if ["false", "False", "FALSE"].contains s then some false
  else none

def digits? (base : Nat) (s : List Char) : Option Nat :=
  if s.isEmpty then none
  else s.foldlM (fun n c => (Json.Token.hexDigit? c).bind fun d =>
    if d < base then some (base * n + d) else none) 0

/-- The number that digits write, in a base that a mark in front may tell. -/
def magnitude? : List Char → Option Nat
  | '0' :: 'x' :: s => digits? 16 s
  | '0' :: 'o' :: s => digits? 8 s
  | '0' :: 'b' :: s => digits? 2 s
  | s => digits? 10 s

/-- Whether a text is made of several digits, the first a zero, perhaps after a sign. Such a text
is no number. -/
def isPadded (s : List Char) : Bool :=
  match (Decimal.cutSign s).2 with
  | '0' :: c :: s => (c :: s).all Char.isDigit
  | _ => false

/-- The whole number of 128 bits that a text writes. -/
def int? (s : List Char) : Option Int := do
  guard !isPadded s
  let (negative, s) := Decimal.cutSign s
  let n ← magnitude? s
  if negative then
    guard (n ≤ Nat.pow 2 127)
    return -n
  else
    guard (n < Nat.pow 2 128)
    return n

def infinity : Float := 1 / 0

/-- The double that a text writes, which must not be out of range. -/
def float? (s : List Char) : Option Float :=
  let unsigned := match s with
    | '+' :: s => s
    | s => s
  if [".inf", ".Inf", ".INF"].contains (String.ofList unsigned) then some infinity
  else if ["-.inf", "-.Inf", "-.INF"].contains (String.ofList s) then some (-infinity)
  else if [".nan", ".NaN", ".NAN"].contains (String.ofList s) then some (0 / 0)
  else if s.length != unsigned.length && (unsigned.head?.any (['+', '-'].contains ·)) then none
  else (Decimal.ofNumeral? unsigned).filter Float.isFinite

def ofString (s : String) : Look :=
  if s == "" || isNull s then null
  else
    match bool? s with
    | some b => bool b
    | none =>
      match int? s.toList with
      | some n => int n
      | none => if isPadded s.toList then text else ((float? s.toList).map float).getD text

end Look

/-- A whole number as a JSON value, if it has 64 bits. -/
def jsonOfInt? (n : Int) : Option Json :=
  if -0x8000000000000000 ≤ n ∧ n < 0x10000000000000000 then some (.ofInt n) else none

def jsonOfFloat (x : Float) : Json :=
  if x.isFinite then .num (.float x) else .null

/-- The JSON value of a plain scalar without a tag. -/
def jsonOfPlain? (s : String) : Option Json :=
  match Look.ofString s with
  | .null => some .null
  | .bool b => some (.bool b)
  | .int n => jsonOfInt? n
  | .float x => some (jsonOfFloat x)
  | .text => some (.str s)

/-- The JSON value of a scalar. A text that is not what its tag says has none, and neither has one
with a local tag. -/
def jsonOfScalar? (tag : Option Tag) (s : String) (plain : Bool) : Option Json :=
  if tag.any Tag.isLocal then none
  else if tag = some (.core "bool") then (Look.bool? s).map .bool
  else if tag = some (.core "int") then (Look.int? s.toList).bind jsonOfInt?
  else if tag = some (.core "float") then (Look.float? s.toList).map jsonOfFloat
  else if tag = some (.core "null") then if Look.isNull s then some .null else none
  else if plain && tag.all (·.afterMark?.isSome) then jsonOfPlain? s
  else some (.str s)

end FileEndpoints.Yaml
