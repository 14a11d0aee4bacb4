import FileEndpoints.Endpoint.BuiltIn
import FileEndpoints.Endpoint.Locked
import FileEndpoints.Mounts.Path
import FileEndpoints.Mounts.Plan

namespace FileEndpoints

inductive Origin where
  /-- The endpoint was handed to the table together with its services. -/
  | given
  /-- The table made the endpoint, which uses the services of the machine. -/
  | made
deriving DecidableEq, Repr

/-- The services that endpoints of either origin use during an operation on a table. -/
structure Surroundings where
  given : Services
  machine : Services

def Surroundings.services (w : Surroundings) : Origin → Services
  | .given => w.given
  | .made => w.machine

structure Slot where
  endpoint : Locked BuiltIn
  origin : Origin

/-- A mount point and the slot of its endpoint. Several mounts may name one slot. -/
structure Mount where
  path : String
  slot : Nat
deriving DecidableEq, Repr

/-- Mounts in the order of their making, and the endpoints they show. -/
structure MountTable where
  mounts : List Mount := []
  slots : List Slot := []

namespace MountTable

def slot? (t : MountTable) (m : Mount) : Option Slot :=
  t.slots[m.slot]?

def view {α : Type} (t : MountTable) (w : Surroundings) (m : Mount)
    (look : Services → Locked BuiltIn → Except Error α) : Except Error α :=
  match t.slot? m with
  | none => .error (.noSuchPath m.path)
  | some s => look (w.services s.origin) s.endpoint

def act {α : Type} (t : MountTable) (w : Surroundings) (m : Mount)
    (operate : Services → Locked BuiltIn → Outcome (Locked BuiltIn) α) : Outcome MountTable α :=
  match t.slot? m with
  | none => { answer := .error (.noSuchPath m.path), state := t }
  | some s =>
    (operate (w.services s.origin) s.endpoint).mapState fun endpoint =>
      { t with slots := t.slots.set m.slot { s with endpoint } }

def nameOf (t : MountTable) (m : Mount) : Except Error String :=
  match t.slot? m with
  | none => .error (.noSuchPath m.path)
  | some s => s.endpoint.name

/-- The variables that operations may look up in the environment. -/
def environmentNames (t : MountTable) : List String :=
  t.slots.flatMap fun s => s.endpoint.endpoint.environmentNames

def mount? (t : MountTable) (path : String) : Option Mount :=
  t.mounts.find? fun m => m.path == MountPath.normalize path

/-- The normal form of a path, if an endpoint can be mounted there. -/
def freePoint (t : MountTable) (path : String) : Except Error String :=
  let point := MountPath.normalize path
  if !MountPath.isMountPoint point then .error (.noSuchPath point)
  else if t.mounts.any fun m => m.path == point then .error (.mountInUse point)
  else .ok point

/-- Mounts an endpoint in a new slot. Logging at the level INFO is taken to be on: the name of the
endpoint is asked for to log the mount, so an endpoint behind a poisoned lock is refused. -/
def mount (t : MountTable) (path : String) (s : Slot) : Except Error MountTable := do
  let point ← t.freePoint path
  let _ ← s.endpoint.name
  return { mounts := t.mounts ++ [{ path := point, slot := t.slots.length }]
           slots := t.slots ++ [s] }

/-- Mounts the endpoint of a mount once more. With logging at the level INFO its name is asked for,
as by `mount`. -/
def mountAgain (t : MountTable) (path : String) (m : Mount) : Except Error MountTable := do
  let point ← t.freePoint path
  let _ ← t.nameOf m
  return { t with mounts := t.mounts ++ [{ path := point, slot := m.slot }] }

/-- Makes the endpoint of a plan, with its settings, and mounts it. -/
def mountSpec (w : Surroundings) (t : MountTable) (m : MountSpec) : Except Error MountTable := do
  let plugin ← Plugin.ofName m.plugin
  let fresh : Locked BuiltIn := { endpoint := ← BuiltIn.create w.machine.clock plugin }
  fresh.validate m.document
  let configured := fresh.configure w.machine m.document
  configured.answer
  t.mount m.path { endpoint := configured.state, origin := .made }

def ofPlan (w : Surroundings) (plan : MountPlan) : Except Error MountTable :=
  plan.mounts.foldlM (mountSpec w) {}

/-- Removes a mount and shuts its endpoint down. The mount is gone also when that fails. -/
def unmount (w : Surroundings) (t : MountTable) (path : String) : Outcome MountTable Unit :=
  match t.mount? path with
  | none => { answer := .error (.noSuchPath (MountPath.normalize path)), state := t }
  | some m => { t with mounts := t.mounts.erase m }.act w m Locked.shutdown

/-- Shuts the endpoints of mounts down in turn. One that fails does not keep the others from it, but
a crash does. -/
def shutdownEach (w : Surroundings) (t : MountTable) : List Mount → Outcome MountTable Unit
  | [] => { answer := .ok (), state := t }
  | m :: ms =>
    let o := t.act w m Locked.shutdown
    match o.answer with
    | .error .crashed => o
    | _ => shutdownEach w o.state ms

/-- Removes all mounts and shuts their endpoints down. -/
def shutdownAll (w : Surroundings) (t : MountTable) : Outcome MountTable Unit :=
  shutdownEach w { t with mounts := [] } t.mounts

/-- The point of each mount and the name of its endpoint, or a question mark if that is poisoned. -/
def listMounts (t : MountTable) : List (String × String) :=
  t.mounts.map fun m =>
    match t.nameOf m with
    | .ok name => (m.path, name)
    | .error _ => (m.path, "?")

/-- The mount that a path belongs to, and the path inside its endpoint. -/
def resolve (t : MountTable) (path : String) : Except Error (Mount × String) :=
  let path := MountPath.normalize path
  match t.mounts.findSome? fun m => (MountPath.below? m.path path).map fun inner => (m, inner) with
  | some route => .ok route
  | none => .error (.noSuchPath path)

def isRoot (path : String) : Bool :=
  MountPath.normalize path == "/"

def rootOwner : String := "endpointfs"

/-- The record of a path. The root of an endpoint has the name of its mount. -/
def stat (w : Surroundings) (t : MountTable) (path : String) : Except Error (Option FileInfo) :=
  if isRoot path then w.machine.now.map fun now => some (.directory now rootOwner "")
  else
    match t.resolve path with
    | .error _ => .ok none
    | .ok (m, inner) => do
      let info ← t.view w m fun s e => e.stat s inner
      if inner == "/" then
        return info.map fun i => { i with name := MountPath.listedName m.path }
      else return info

/-- The records of a directory. The root lists the mounts as directories. -/
def list (w : Surroundings) (t : MountTable) (path : String) : Except Error (List FileInfo) :=
  if isRoot path then
    t.mounts.mapM fun m => do
      let name ← t.nameOf m
      return .directory (← w.machine.now) name (MountPath.listedName m.path)
  else do
    let (m, inner) ← t.resolve path
    t.view w m fun s e => e.list s inner

def read (w : Surroundings) (t : MountTable) (path : String) (offset size : Int) :
    Outcome MountTable Bytes :=
  match t.resolve path with
  | .error err => { answer := .error err, state := t }
  | .ok (m, inner) => t.act w m fun s e => e.read s inner offset size

def write (w : Surroundings) (t : MountTable) (path : String) (data : Bytes) :
    Outcome MountTable Unit :=
  match t.resolve path with
  | .error err => { answer := .error err, state := t }
  | .ok (m, inner) => t.act w m fun s e => e.write s inner data

end MountTable

end FileEndpoints
