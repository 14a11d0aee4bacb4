import FileEndpoints.Text.Numeral
import FileEndpoints.Time.Calendar

namespace FileEndpoints.Time

/-- A point in time, to the microsecond. -/
structure Instant where
  /-- Microseconds since 1 January 1970. -/
  micros : Int
deriving DecidableEq, Repr, Inhabited

/-- The instant a number of seconds after 1 January 1970. -/
def Instant.ofSeconds (s : Int) : Instant :=
  ⟨1000000 * s⟩

/-- Whole seconds since 1 January 1970, rounded down. -/
def Instant.seconds (t : Instant) : Int :=
  t.micros.fdiv 1000000

def Instant.date (t : Instant) : Date :=
  Date.ofDays (t.seconds.fdiv 86400)

/-- A year in at least four digits, with a sign unless it lies between 0 and 9999. -/
def yearText (y : Int) : String :=
  if 0 ≤ y ∧ y < 10000 then Text.natPadded 4 y.toNat
  else (if y < 0 then "-" else "+") ++ Text.natPadded 4 y.natAbs

/-- Date and time of day in universal time, as in `2024-06-01 12:00:00`. -/
def Instant.stamp (t : Instant) : String :=
  let date := t.date
  let second := (t.seconds.fmod 86400).toNat
  yearText date.year ++ "-" ++ Text.natPadded 2 date.month ++ "-" ++ Text.natPadded 2 date.day ++
    " " ++ Text.natPadded 2 (second / 3600) ++ ":" ++ Text.natPadded 2 (second / 60 % 60) ++ ":" ++
    Text.natPadded 2 (second % 60)

/-- Whether clocks can show an instant: they show the years from -262143 to 262142. -/
def Instant.inRange (t : Instant) : Bool :=
  -262143 ≤ t.date.year && t.date.year ≤ 262142

/-- The whole milliseconds from one instant to another, the rest dropped toward zero. -/
def Instant.millisSince (t start : Instant) : Int :=
  (t.micros - start.micros).tdiv 1000

end FileEndpoints.Time
