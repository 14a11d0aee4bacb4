import FileEndpoints.Remote.Request
import FileEndpoints.Settings.Secret
import FileEndpoints.Time.Reading

namespace FileEndpoints

open Time (Instant Reading)

structure Invocation where
  skill : String
  instructions : String
  parameters : String
  executedAt : Instant
deriving DecidableEq, Repr

inductive RunOutcome where
  | completed (text : String)
  | failed (message : String)
  /-- The run breaks off and takes the operation that started it with it. -/
  | crashed
deriving DecidableEq, Repr

structure Run where
  outcome : RunOutcome
  /-- How long it took, in nanoseconds. -/
  elapsed : Nat
  endedAt : Instant
deriving DecidableEq, Repr

/-- The answers that the surroundings give during one operation. An operation reads each clock once,
apart from the end of a run. It makes one remote call at most and one run at most. -/
structure Services where
  now : Reading
  /-- The clock of a skill, which stamps its runs and its log. -/
  clock : Reading
  env : Environment
  post : Request → Reply
  run : Invocation → Run

/-- What an operation asked of its surroundings, apart from the time and the environment. -/
inductive Effect where
  | posted (request : Request)
  | ran (invocation : Invocation)

structure Outcome (σ α : Type) where
  answer : Except Error α
  state : σ
  effects : List Effect := []

/-- Goes on with the time, or stops in a state if the clock cannot tell it. -/
def Outcome.timed {σ α : Type} (reading : Reading) (state : σ) (next : Instant → Outcome σ α) :
    Outcome σ α :=
  match reading with
  | .error err => { answer := .error err, state }
  | .ok time => next time

/-- The same result of an operation on a state that contains the first one. -/
def Outcome.mapState {σ τ α : Type} (f : σ → τ) (o : Outcome σ α) : Outcome τ α :=
  { answer := o.answer, state := f o.state, effects := o.effects }

end FileEndpoints
