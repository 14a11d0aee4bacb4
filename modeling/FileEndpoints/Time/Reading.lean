import FileEndpoints.Error
import FileEndpoints.Time.Instant

namespace FileEndpoints.Time

/-- What a look at a clock gives. A clock that cannot tell the time makes the looker crash. -/
abbrev Reading := Except Error Instant

/-- A look at the machine's clock when it stands at an instant. It tells no time before 1970. -/
def Instant.onMachine (t : Instant) : Reading :=
  if 0 ≤ t.micros ∧ t.inRange then .ok t else .error .crashed

end FileEndpoints.Time
