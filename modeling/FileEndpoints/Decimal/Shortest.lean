namespace FileEndpoints

structure Decimal where
  digits : Nat
  exponent : Int
deriving DecidableEq, Repr

namespace Decimal

/-- A positive finite double as `significand * 2 ^ exponent`. -/
structure Binary where
  /-- The significand, below `2 ^ 53`. -/
  significand : Nat
  exponent : Int
  /-- Whether the next smaller double is only half as far away as the next greater one. -/
  lowerHalved : Bool

/-- The parts of the absolute value of a finite double. -/
def Binary.ofFloat (x : Float) : Binary :=
  let bits := x.toBits.toNat % Nat.pow 2 63
  let biased : Nat := bits / Nat.pow 2 52
  let fraction := bits % Nat.pow 2 52
  if biased = 0 then ⟨fraction, -1074, false⟩
  else ⟨fraction + Nat.pow 2 52, (biased : Int) - 1075, fraction == 0 && 1 < biased⟩

/-- A quarter of the last bit's weight, in units of `10 ^ grid`, as a quotient. -/
def Binary.quarter (b : Binary) (grid : Int) : Nat × Nat :=
  let twos := b.exponent - 2
  (Nat.pow 2 twos.toNat * Nat.pow 10 (-grid).toNat,
    Nat.pow 2 (-twos).toNat * Nat.pow 10 grid.toNat)

def Binary.covers (b : Binary) (grid : Int) (c : Nat) : Bool :=
  let (num, den) := b.quarter grid
  let below := (4 * b.significand - if b.lowerHalved then 1 else 2) * num
  let above := (4 * b.significand + 2) * num
  if b.significand % 2 = 0 then below ≤ c * den && c * den ≤ above
  else below < c * den && c * den < above

/-- The point of the grid that rounds to the double, the nearer of two, the even one of a tie. -/
def Binary.onGrid? (b : Binary) (grid : Int) : Option Decimal :=
  let (num, den) := b.quarter grid
  let value := 4 * b.significand * num
  let low := value / den
  let rest := value % den
  let lowFirst := 2 * rest < den || (2 * rest == den && low % 2 == 0)
  let points := if lowFirst then [low, low + 1] else [low + 1, low]
  (points.find? fun c => 0 < c && b.covers grid c).map fun c => ⟨c, grid⟩

/-- The place of the first digit: the greatest `e` with `10 ^ e` at most the value. -/
def Binary.leading (b : Binary) : Int :=
  let (num, den) := b.quarter 0
  let value := 4 * b.significand * num
  let guess : Int := (Nat.toDigits 10 value).length - (Nat.toDigits 10 den).length
  if value * Nat.pow 10 (-guess).toNat < den * Nat.pow 10 guess.toNat then guess - 1 else guess

/-- Moves zeros at the end of the digits into the exponent. -/
def trim (d : Decimal) : Decimal :=
  if h : d.digits ≠ 0 ∧ d.digits % 10 = 0 then
    trim ⟨d.digits / 10, d.exponent + 1⟩
  else d
termination_by d.digits
decreasing_by omega

/-- The shortest decimal that rounds to a positive double, and of several the nearest. For each
number of digits only the two neighbours on the decimal grid need a look: if any point of the grid
rounds to the double, one of them does. -/
def Binary.shortest (b : Binary) : Decimal :=
  let first := b.leading
  match (List.range 17).findSome? fun (k : Nat) => b.onGrid? (first - k) with
  | some d => d.trim
  | none => ⟨0, 0⟩

end Decimal

end FileEndpoints
