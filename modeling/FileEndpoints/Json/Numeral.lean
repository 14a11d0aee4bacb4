import FileEndpoints.Decimal.Nearest
import FileEndpoints.Json.Basic
import FileEndpoints.Text.Numeral

namespace FileEndpoints.Json.Numeral

def maxWord : Nat := 0xFFFFFFFFFFFFFFFF

def spanDigits : List Char → List Nat × List Char
  | [] => ([], [])
  | c :: s =>
    match Text.digit? c with
    | none => ([], c :: s)
    | some d =>
      let (ds, rest) := spanDigits s
      (d :: ds, rest)

/-- Appends digits to a number as long as it fits 64 bits, and gives the digits left over. -/
def absorb (n : Nat) : List Nat → Nat × List Nat
  | [] => (n, [])
  | d :: ds => if 10 * n + d ≤ maxWord then absorb (10 * n + d) ds else (n, d :: ds)

/-- A double times a power of ten, in steps that the doubles can express; `none` beyond them. -/
def scale (x : Float) (exponent : Int) : Option Float :=
  if x == 0 then some x
  else if 308 < exponent then none
  else if 0 ≤ exponent then
    let y := x * Decimal.nearest 1 exponent
    if y.isInf then none else some y
  else if -308 ≤ exponent then some (x / Decimal.nearest 1 (-exponent))
  else scale (x / Decimal.nearest 1 308) (exponent + 308)
termination_by (-exponent).toNat
decreasing_by omega

/-- A numeral cut into its parts: the digits of its whole part, fraction and exponent. -/
structure Parts where
  negative : Bool
  whole : List Nat
  fraction : Option (List Nat)
  exponent : Option Int

/-- The digits after a point, of which there must be one, if a point comes next. -/
def fraction? : List Char → Option (Option (List Nat) × List Char)
  | '.' :: s =>
    match spanDigits s with
    | ([], _) => none
    | (ds, rest) => some (some ds, rest)
  | s => some (none, s)

def natOfDigits (ds : List Nat) : Nat :=
  ds.foldl (fun n d => 10 * n + d) 0

/-- The exponent after its mark, with at least one digit, if the mark comes next. -/
def exponent? : List Char → Option (Option Int × List Char)
  | [] => some (none, [])
  | c :: s =>
    if c = 'e' ∨ c = 'E' then
      let (negative, s) := match s with
        | '-' :: s => (true, s)
        | '+' :: s => (false, s)
        | s => (false, s)
      match spanDigits s with
      | ([], _) => none
      | (ds, rest) =>
        let n : Int := natOfDigits ds
        some (some (if negative then -n else n), rest)
    else some (none, c :: s)

def parts? (s : List Char) : Option Parts := do
  let (negative, s) := match s with
    | '-' :: s => (true, s)
    | s => (false, s)
  let (whole, s) := spanDigits s
  guard (whole ≠ [] ∧ (whole.length = 1 ∨ whole.head? ≠ some 0))
  let (fraction, s) ← fraction? s
  let (exponent, s) ← exponent? s
  guard s.isEmpty
  return { negative, whole, fraction, exponent }

/-- The double of a numeral: the leading digits that fit 64 bits, scaled by a power of ten in double
arithmetic. A magnitude beyond the doubles is refused. -/
def Parts.toFloat? (p : Parts) : Option Float := do
  let (n, dropped) := absorb 0 p.whole
  let fraction := p.fraction.getD []
  let (n, unread) := absorb n fraction
  let kept : Int := fraction.length - unread.length
  let x ← scale (UInt64.ofNat n).toFloat (dropped.length - kept + p.exponent.getD 0)
  return if p.negative then -x else x

/-- The number of a numeral. Without fraction and exponent it is kept whole if 64 bits hold it.
Minus zero is a double. -/
def Parts.toNumber? (p : Parts) : Option Number :=
  let n := natOfDigits p.whole
  let whole := p.fraction.isNone && p.exponent.isNone
  if whole && !p.negative && n ≤ maxWord then some (.int n)
  else if whole && p.negative && n ≠ 0 && n ≤ Nat.pow 2 63 then some (.int (-n))
  else p.toFloat?.map .float

/-- The number written by a text that is one numeral. -/
def read? (s : List Char) : Option Number :=
  (parts? s).bind Parts.toNumber?

end FileEndpoints.Json.Numeral
