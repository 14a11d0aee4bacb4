import FileEndpoints.Decimal.Nearest
import FileEndpoints.Text.Numeral

namespace FileEndpoints.Decimal

def spanDigits (s : List Char) : List Char × List Char :=
  (s.takeWhile Char.isDigit, s.dropWhile Char.isDigit)

/-- Cuts an optional sign off; true stands for a minus sign. -/
def cutSign : List Char → Bool × List Char
  | '-' :: s => (true, s)
  | '+' :: s => (false, s)
  | s => (false, s)

/-- The exponent that a text consists of, zero for an empty text. -/
def exponentOf? : List Char → Option Int
  | [] => some 0
  | c :: s => do
    guard (c = 'e' ∨ c = 'E')
    let (negative, s) := cutSign s
    let n ← Text.natOfDigits? s
    return if negative then -(n : Int) else n

/-- The nearest double to the number written by an unsigned numeral. The digits before or after the
point may be left out, but not both. -/
def ofUnsigned? (s : List Char) : Option Float := do
  let (whole, s) := spanDigits s
  let (fraction, s) := match s with
    | '.' :: s => spanDigits s
    | s => ([], s)
  let n ← Text.natOfDigits? (whole ++ fraction)
  let e ← exponentOf? s
  return nearest n (e - fraction.length)

/-- The double written by a numeral with an optional sign. -/
def ofNumeral? (s : List Char) : Option Float :=
  let (negative, s) := cutSign s
  (ofUnsigned? s).map fun x => if negative then -x else x

end FileEndpoints.Decimal
