import FileEndpoints.Decimal.Shortest

namespace FileEndpoints.Decimal

/-- The choices that a format makes in writing a double. -/
structure Layout where
  /-- The least exponent of the first digit that is written positionally. -/
  leastPlain : Int := -5
  greatestPlain : Int := 15
  plusSign : Bool

/-- Positional text of digits whose last one stands at the given place. -/
def positional (digits : List Char) (exponent : Int) : List Char :=
  let point : Int := digits.length + exponent
  if 0 ≤ exponent then digits ++ List.replicate exponent.toNat '0' ++ ['.', '0']
  else if 0 < point then digits.take point.toNat ++ '.' :: digits.drop point.toNat
  else '0' :: '.' :: List.replicate (-point).toNat '0' ++ digits

/-- Text with one digit before the point and the exponent `e` of that digit. -/
def Layout.scientific (l : Layout) (digits : List Char) (e : Int) : List Char :=
  let mantissa := match digits with
    | [] => []
    | [d] => [d]
    | d :: ds => d :: '.' :: ds
  let sign := if e < 0 then ['-'] else if l.plusSign then ['+'] else []
  mantissa ++ 'e' :: sign ++ Nat.toDigits 10 e.natAbs

def Layout.text (l : Layout) (d : Decimal) : List Char :=
  let digits := Nat.toDigits 10 d.digits
  let e : Int := digits.length - 1 + d.exponent
  if l.leastPlain ≤ e ∧ e ≤ l.greatestPlain then positional digits d.exponent
  else l.scientific digits e

/-- The text of a finite double: its shortest digits with a fraction or an exponent mark. -/
def Layout.write (l : Layout) (x : Float) : List Char :=
  let sign := if x.toBits.toNat < Nat.pow 2 63 then [] else ['-']
  if x == 0 then sign ++ ['0', '.', '0']
  else sign ++ l.text (Binary.ofFloat x).shortest

end FileEndpoints.Decimal
