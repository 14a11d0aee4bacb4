import FileEndpoints.Json.Writer
import FileEndpoints.Time.Instant

namespace FileEndpoints

open Time (Instant)

inductive ExecutionState where
  /-- Nothing has been queued since it was created or last configured. -/
  | idle
  | pending
  | running
  | completed
  | failed
deriving DecidableEq, Repr

def ExecutionState.name : ExecutionState → String
  | idle => "idle"
  | pending => "pending"
  | running => "running"
  | completed => "completed"
  | failed => "failed"

/-- A number rounded to hundredths, a half away from zero. -/
def roundHundredths (x : Float) : Float :=
  (x * 100).round / 100

def millisOfNanos (n : Nat) : Float :=
  ((n / 1000000000).toFloat + (n % 1000000000).toFloat / 1000000000) * 1000

structure StatusSnapshot where
  skill : String
  state : ExecutionState
  pending : Bool
  cacheHit : Bool
  lastExecution : String
  /-- How long the latest successful run took, in milliseconds, to the hundredth. -/
  duration : Float

namespace StatusSnapshot

/-- The snapshot of an endpoint whose latest successful run began at an instant and took a number of
milliseconds. -/
def take (skill : String) (state : ExecutionState) (pending cacheHit : Bool)
    (executedAt : Option Instant) (millis : Float) : StatusSnapshot :=
  { skill, state, pending, cacheHit
    lastExecution := (executedAt.map Instant.stamp).getD ""
    duration := roundHundredths millis }

def toJson (s : StatusSnapshot) : Json :=
  .obj [("skill", .str s.skill), ("state", .str s.state.name), ("pending", .bool s.pending),
    ("cache_hit", .bool s.cacheHit), ("last_execution", .str s.lastExecution),
    ("duration_ms", .num (.float s.duration))]

def render (s : StatusSnapshot) : String :=
  s.toJson.render

end StatusSnapshot

end FileEndpoints
