namespace FileEndpoints.Time

/-- A day of the calendar. Year 0 stands before year 1. -/
structure Date where
  year : Int
  month : Nat
  day : Nat
deriving DecidableEq, Repr

/-- The date of a day counted from 1 January 1970, in the Gregorian calendar without end. For the
computation a year begins in March, so that the day put in every fourth year is its last, and 400
years are one cycle of 146097 days. -/
def Date.ofDays (days : Int) : Date :=
  let shifted := days + 719468
  let cycle := shifted.fdiv 146097
  let day := (shifted.fmod 146097).toNat
  let year := (day - day / 1460 + day / 36524 - day / 146096) / 365
  let day := day - (365 * year + year / 4 - year / 100)
  let month := (5 * day + 2) / 153
  { year := (year : Int) + 400 * cycle + (if month < 10 then 0 else 1)
    month := if month < 10 then month + 3 else month - 9
    day := day - (153 * month + 2) / 5 + 1 }

end FileEndpoints.Time
