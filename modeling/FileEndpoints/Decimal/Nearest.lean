namespace FileEndpoints.Decimal

/-- The quotient rounded to the nearest integer, a half to the even neighbour. -/
def roundHalfEven (num den : Nat) : Nat :=
  let q := num / den
  let r := num % den
  if 2 * r < den then q
  else if den < 2 * r then q + 1
  else q + q % 2

/-- The exponent of the least significant bit that a double keeps of a positive quotient. -/
def lastBit (num den : Nat) : Int :=
  let guess : Int := (num.log2 : Int) - den.log2 - 52
  let scaled : Nat × Nat :=
    if 0 ≤ guess then (num, den * Nat.pow 2 guess.toNat)
    else (num * Nat.pow 2 (-guess).toNat, den)
  let q := if scaled.1 < scaled.2 * Nat.pow 2 52 then guess - 1 else guess
  max q (-1074)

def ofQuotient (num den : Nat) : Float :=
  let q := lastBit num den
  let significand :=
    if 0 ≤ q then roundHalfEven num (den * Nat.pow 2 q.toNat)
    else roundHalfEven (num * Nat.pow 2 (-q).toNat) den
  let bits := (q + 1074).toNat * Nat.pow 2 52 + significand
  Float.ofBits (UInt64.ofNat (min bits (0x7FF * Nat.pow 2 52)))

/-- The double nearest to `digits * 10 ^ exponent`, by one rounding; of two that are equally near
the even one. -/
def nearest (digits : Nat) (exponent : Int) : Float :=
  if digits = 0 then 0
  else
    let size : Int := (Nat.toDigits 10 digits).length + exponent
    if 310 < size then Float.ofBits (UInt64.ofNat (0x7FF * Nat.pow 2 52))
    else if size < -330 then 0
    else if 0 ≤ exponent then ofQuotient (digits * Nat.pow 10 exponent.toNat) 1
    else ofQuotient digits (Nat.pow 10 (-exponent).toNat)

end FileEndpoints.Decimal
