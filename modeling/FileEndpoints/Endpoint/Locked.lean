import FileEndpoints.Endpoint.Basic

namespace FileEndpoints

/-- An endpoint that several users share through a lock. An operation that crashes while it holds
the lock alone poisons it, and every later one fails. -/
structure Locked (σ : Type) where
  endpoint : σ
  poisoned : Bool := false

namespace Locked

variable {σ : Type}

def view {α : Type} (l : Locked σ) (look : σ → Except Error α) : Except Error α :=
  if l.poisoned then .error .poisoned else look l.endpoint

def act {α : Type} (l : Locked σ) (operate : σ → Outcome σ α) : Outcome (Locked σ) α :=
  if l.poisoned then { answer := .error .poisoned, state := l }
  else
    let o := operate l.endpoint
    match o.answer with
    | .error .crashed => o.mapState fun e => { endpoint := e, poisoned := true }
    | _ => o.mapState fun e => { endpoint := e }

variable [Endpoint σ]

def name (l : Locked σ) : Except Error String :=
  l.view fun e => .ok (Endpoint.name e)

def readme (l : Locked σ) : Except Error String :=
  l.view fun e => .ok (Endpoint.readme e)

def validate (l : Locked σ) (document : Option String) : Except Error Unit :=
  l.view fun e => Endpoint.validate e document

def stat (s : Services) (l : Locked σ) (path : String) : Except Error (Option FileInfo) :=
  l.view fun e => Endpoint.stat s e path

def list (s : Services) (l : Locked σ) (path : String) : Except Error (List FileInfo) :=
  l.view fun e => Endpoint.list s e path

def configure (s : Services) (l : Locked σ) (document : Option String) : Outcome (Locked σ) Unit :=
  l.act fun e => Endpoint.configure s e document

def shutdown (s : Services) (l : Locked σ) : Outcome (Locked σ) Unit :=
  l.act fun e => Endpoint.shutdown s e

def beginWrite (s : Services) (l : Locked σ) (path : String) (data : Bytes) :
    Outcome (Locked σ) WriteStep :=
  l.act fun e => Endpoint.beginWrite s e path data

def finishWrite (s : Services) (l : Locked σ) (call : PendingCall) (reply : Reply) :
    Outcome (Locked σ) Unit :=
  l.act fun e => Endpoint.finishWrite s e call reply

def changeStructure (l : Locked σ) (change : StructureChange) (path : String) : Except Error Unit :=
  l.view fun e => Endpoint.changeStructure e change path

/-- Reads, since a read may bring the content up to date, hold the lock alone. -/
def read (s : Services) (l : Locked σ) (path : String) (offset size : Int) :
    Outcome (Locked σ) Bytes :=
  l.act fun e => Endpoint.read s e path offset size

/-- A write with nothing between its parts: the lock is taken, freed for the remote call, and taken
again. -/
def write (s : Services) (l : Locked σ) (path : String) (data : Bytes) : Outcome (Locked σ) Unit :=
  let begun := l.beginWrite s path data
  match begun.answer with
  | .error err => { begun with answer := .error err }
  | .ok .done => { begun with answer := .ok () }
  | .ok (.remote call) =>
    let (reply, sent) := dispatch s (Endpoint.connected begun.state.endpoint) call
    let finished := begun.state.finishWrite s call reply
    { finished with effects := begun.effects ++ sent ++ finished.effects }

end Locked

end FileEndpoints
