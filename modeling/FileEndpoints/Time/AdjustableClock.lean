import FileEndpoints.Time.Instant

namespace FileEndpoints.Time

/-- A clock that moves only when told to. An attempt to move it out of range fails and jams it: it
then stays where it is for good. -/
structure AdjustableClock where
  now : Instant
  jammed : Bool := false
deriving DecidableEq, Repr

namespace AdjustableClock

/-- Whether moving by a number of microseconds fails. A jammed clock ignores the attempt. -/
def refuses (c : AdjustableClock) (micros : Int) : Bool :=
  !c.jammed && !Instant.inRange ⟨c.now.micros + micros⟩

def advance (c : AdjustableClock) (micros : Int) : AdjustableClock :=
  if c.jammed then c
  else if c.refuses micros then { c with jammed := true }
  else { c with now := ⟨c.now.micros + micros⟩ }

def set (c : AdjustableClock) (t : Instant) : AdjustableClock :=
  if c.jammed then c else { c with now := t }

end AdjustableClock

end FileEndpoints.Time
