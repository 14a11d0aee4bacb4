import FileEndpoints.FileInfo
import FileEndpoints.Services
import FileEndpoints.Text.Utf8

namespace FileEndpoints

/-- A remote call that a write needs, with what its endpoint has to know when the reply comes. -/
structure PendingCall where
  request : Request
  /-- The number of results that the readable response may show. -/
  resultLimit : Option Int
  /-- The generation of the payload that the call was made from. -/
  generation : Nat

/-- What remains to be done after a write has begun. -/
inductive WriteStep where
  | done
  | remote (call : PendingCall)

/-- Types whose values are endpoints. A write may need a remote call: it is then begun, the call is
made, and the write is finished with what came of the call. -/
class Endpoint (σ : Type) where
  name : σ → String
  readme : σ → String
  stat : Services → σ → String → Except Error (Option FileInfo)
  list : Services → σ → String → Except Error (List FileInfo)
  /-- Checks a settings document without taking it over. Most endpoints leave it to `configure`. -/
  validate : σ → Option String → Except Error Unit := fun _ _ => .ok ()
  configure : Services → σ → Option String → Outcome σ Unit
  shutdown : Services → σ → Outcome σ Unit
  /-- A window of the content of a file; reading may first bring the content up to date. -/
  read : Services → σ → String → Int → Int → Outcome σ Bytes
  /-- Checks and records a write, and prepares the remote call that it needs. -/
  beginWrite : Services → σ → String → Bytes → Outcome σ WriteStep
  finishWrite : Services → σ → PendingCall → Reply → Outcome σ Unit := fun _ e _ reply =>
    { answer := reply.map fun _ => (), state := e }
  connected : σ → Bool := fun _ => false

def dispatch (s : Services) (connected : Bool) (call : PendingCall) : Reply × List Effect :=
  if connected then (s.post call.request, [.posted call.request]) else (.error .noTransport, [])

namespace Endpoint

variable {σ : Type} [Endpoint σ]

/-- Overwrites the content of a file, with the remote call that this may need. -/
def write (s : Services) (e : σ) (path : String) (data : Bytes) : Outcome σ Unit :=
  let begun := beginWrite s e path data
  match begun.answer with
  | .error err => { begun with answer := .error err }
  | .ok .done => { begun with answer := .ok () }
  | .ok (.remote call) =>
    let (reply, sent) := dispatch s (connected begun.state) call
    let finished := finishWrite s begun.state call reply
    { finished with effects := begun.effects ++ sent ++ finished.effects }

/-- Operations on the set of files fail, whatever the path, since the set is fixed. -/
def changeStructure (_ : σ) (change : StructureChange) (_path : String) : Except Error Unit :=
  .error (.unsupported change)

end Endpoint

end FileEndpoints
