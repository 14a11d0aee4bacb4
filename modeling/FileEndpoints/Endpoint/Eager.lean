import FileEndpoints.Endpoint.Basic
import FileEndpoints.ResponseCache
import FileEndpoints.Settings.Patch
import FileEndpoints.Tree
import FileEndpoints.Window

namespace FileEndpoints

open Time (Instant Reading)

inductive EagerFile where
  | request
  | responseJson
  | responseTxt
deriving DecidableEq, Repr

instance : TreeFile EagerFile where
  name
    | .request => "request"
    | .responseJson => "response.json"
    | .responseTxt => "response.txt"
  access
    | .request => .trigger
    | _ => .readOnly

/-- The sizes that stat shows for the response files. -/
inductive SizePolicy where
  /-- The length of the response, or zero before there is one. -/
  | live
  | zero
deriving DecidableEq, Repr

structure EagerProfile where
  owner : String
  sizes : SizePolicy
  /-- What stands in the raw response file before there is a response. -/
  emptyRaw : String
  /-- What stands in the readable response file before there is a response. -/
  emptySummary : String
deriving DecidableEq, Repr

namespace EagerProfile

def tree (p : EagerProfile) : Tree EagerFile :=
  { owner := p.owner, files := [.request, .responseJson, .responseTxt] }

def size (p : EagerProfile) (c : ResponseCache) (f : EagerFile) : Nat :=
  match p.sizes, f with
  | .live, .responseJson => (c.raw.getD []).length
  | .live, .responseTxt => (Text.encode (c.summary.getD "")).length
  | _, _ => 0

def content (p : EagerProfile) (c : ResponseCache) : EagerFile → Bytes
  | .responseJson => c.raw.getD (Text.encode p.emptyRaw)
  | _ => Text.encode (c.summary.getD p.emptySummary)

def stat (p : EagerProfile) (c : ResponseCache) (now : Reading) (path : String) :
    Except Error (Option FileInfo) :=
  p.tree.stat now (p.size c) path

def list (p : EagerProfile) (c : ResponseCache) (now : Reading) (path : String) :
    Except Error (List FileInfo) :=
  p.tree.list now (p.size c) path

def read (p : EagerProfile) (c : ResponseCache) (path : String) (offset size : Int) :
    Except Error Bytes :=
  (p.tree.readable path).map fun f => readWindow (p.content c f) offset size

/-- Records a payload written to a path. A blank one is refused before anything is recorded. -/
def accept (p : EagerProfile) (c : ResponseCache) (path : String) (data : Bytes)
    (missing : String) : Except Error ResponseCache :=
  match p.tree.writable path with
  | .error err => .error err
  | .ok _ => if isBlankPayload data then .error (.invalidPayload missing) else .ok (c.submit data)

end EagerProfile

/-- Types whose values are the settings of a remote service. -/
class RemoteService (S : Type) where
  profile : EagerProfile
  readme : String
  initial : S
  missing : String
  merge : S → Patch → S
  /-- The call that a payload asks for, with the number of results to show. -/
  compose : S → Environment → Bytes → Except Error (Request × Option Int)
  summarize : S → Option Int → Bytes → String

/-- An endpoint that calls its remote service, with settings `S`, before a write to the request file
returns. The two response files show the latest response, raw and readable. -/
structure Eager (S : Type) where
  settings : S
  cache : ResponseCache := {}
  /-- Whether it has been configured, and not shut down since. -/
  active : Bool := false

namespace Eager

variable {S : Type} [RemoteService S]

def create : Eager S :=
  { settings := RemoteService.initial }

def profile (_ : Eager S) : EagerProfile :=
  RemoteService.profile S

def configure (e : Eager S) (document : Option String) : Outcome (Eager S) Unit :=
  match Patch.parse document with
  | .error err => { answer := .error err, state := e }
  | .ok patch =>
    { answer := .ok ()
      state := { e with settings := RemoteService.merge e.settings patch, active := true } }

def shutdown (e : Eager S) : Outcome (Eager S) Unit :=
  { answer := .ok (), state := { e with active := false } }

/-- Records the payload and composes the call. The payload stays recorded when no call can be
composed from it. -/
def beginWrite (s : Services) (e : Eager S) (path : String) (data : Bytes) :
    Outcome (Eager S) WriteStep :=
  match e.profile.accept e.cache path data (RemoteService.missing S) with
  | .error err => { answer := .error err, state := e }
  | .ok cache =>
    let answer := (RemoteService.compose e.settings s.env data).map fun (request, resultLimit) =>
      WriteStep.remote { request, resultLimit, generation := cache.generation }
    { answer, state := { e with cache } }

/-- Whether no payload has been recorded since the one of the given generation. -/
def isCurrent (c : ResponseCache) (generation : Nat) : Bool :=
  c.generation == generation

def install (e : Eager S) (now : Instant) (resultLimit : Option Int) (body : String) : Eager S :=
  let raw := Text.encode body
  let summary := RemoteService.summarize e.settings resultLimit raw
  { e with cache := e.cache.install (some raw) summary now }

/-- Takes the reply to a call. It changes nothing if the call failed or has been overtaken. -/
def finishWrite (s : Services) (e : Eager S) (call : PendingCall) (reply : Reply) :
    Outcome (Eager S) Unit :=
  match reply with
  | .error err => { answer := .error err, state := e }
  | .ok body =>
    if isCurrent e.cache call.generation then
      .timed s.now e fun now => { answer := .ok (), state := e.install now call.resultLimit body }
    else { answer := .ok (), state := e }

instance : Endpoint (Eager S) where
  name _ := (RemoteService.profile S).owner
  readme _ := RemoteService.readme S
  stat s e path := e.profile.stat e.cache s.now path
  list s e path := e.profile.list e.cache s.now path
  configure _ e document := e.configure document
  shutdown _ e := e.shutdown
  read _ e path offset size :=
    { answer := e.profile.read e.cache path offset size, state := e }
  beginWrite := beginWrite
  finishWrite := finishWrite
  connected _ := true

end Eager

end FileEndpoints
