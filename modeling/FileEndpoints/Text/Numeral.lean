namespace FileEndpoints.Text

def digit? (c : Char) : Option Nat :=
  if '0' ≤ c ∧ c ≤ '9' then some (c.toNat - '0'.toNat) else none

/-- The number written by a list of decimal digits. -/
def natOfDigits? (s : List Char) : Option Nat :=
  match s with
  | [] => none
  | s => s.foldlM (fun n c => (digit? c).map fun d => 10 * n + d) 0

def minInt64 : Int := -0x8000000000000000

def maxInt64 : Int := 0x7FFFFFFFFFFFFFFF

/-- A signed number of 64 bits: an optional sign and at least one digit. -/
def int64? (s : List Char) : Option Int := do
  let n : Int ← match s with
    | '-' :: s => (natOfDigits? s).map fun n => -(n : Int)
    | '+' :: s => (natOfDigits? s).map fun n => (n : Int)
    | s => (natOfDigits? s).map fun n => (n : Int)
  guard (minInt64 ≤ n ∧ n ≤ maxInt64)
  return n

def natDigits (n : Nat) : List Char :=
  Nat.toDigits 10 n

/-- A number in decimal, with at least the given number of digits. -/
def natPadded (width n : Nat) : String :=
  let digits := natDigits n
  String.ofList (List.replicate (width - digits.length) '0' ++ digits)

/-- Fills a text with blanks on the right up to a width in characters. -/
def padRight (width : Nat) (s : String) : String :=
  s ++ String.ofList (List.replicate (width - s.length) ' ')

/-- Fills a text with blanks on the left up to a width in characters. -/
def padLeft (width : Nat) (s : String) : String :=
  String.ofList (List.replicate (width - s.length) ' ') ++ s

end FileEndpoints.Text
