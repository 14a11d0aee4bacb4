import FileEndpoints.Error
import FileEndpoints.FileInfo
import FileEndpoints.Time.Reading

namespace FileEndpoints

open Time (Reading)

inductive Access where
  | readOnly
  | readWrite
  | trigger
deriving DecidableEq, Repr

def Access.readable : Access → Bool
  | trigger => false
  | _ => true

def Access.writable : Access → Bool
  | readOnly => false
  | _ => true

class TreeFile (φ : Type) where
  name : φ → String
  access : φ → Access

/-- A flat tree of files with the name of the endpoint that shows it. Listings keep the order of the
files. -/
structure Tree (φ : Type) where
  owner : String
  files : List φ

namespace Tree

variable {φ : Type}

def isRoot (path : String) : Bool :=
  path == "/"

/-- The name that a path asks for: all that follows its leading slash. -/
def nameOf? (path : String) : Option String :=
  match path.toList with
  | '/' :: name => some (String.ofList name)
  | _ => none

variable [TreeFile φ]

/-- The first file of the name that a path asks for. -/
def find? (t : Tree φ) (path : String) : Option φ :=
  (nameOf? path).bind fun name => t.files.find? fun f => TreeFile.name f == name

def readable (t : Tree φ) (path : String) : Except Error φ :=
  match t.find? path with
  | none => .error (.noSuchPath path)
  | some f => if (TreeFile.access f).readable then .ok f else .error (.notReadable path)

def writable (t : Tree φ) (path : String) : Except Error φ :=
  match t.find? path with
  | none => .error (.noSuchPath path)
  | some f => if (TreeFile.access f).writable then .ok f else .error (.notWritable path)

def fileInfo (t : Tree φ) (now : Reading) (size : φ → Nat) (f : φ) : Except Error FileInfo :=
  now.map fun now => .file now t.owner (TreeFile.name f) (size f)

/-- The record of a path, if it is the root or a file. -/
def stat (t : Tree φ) (now : Reading) (size : φ → Nat) (path : String) :
    Except Error (Option FileInfo) :=
  if isRoot path then now.map fun now => some (.directory now t.owner "")
  else (t.find? path).mapM (t.fileInfo now size)

/-- The records of all files, if the path is the root. -/
def list (t : Tree φ) (now : Reading) (size : φ → Nat) (path : String) :
    Except Error (List FileInfo) :=
  if isRoot path then t.files.mapM (t.fileInfo now size) else .error (.notADirectory path)

end Tree

structure Node where
  name : String
  access : Access
deriving DecidableEq, Repr

instance : TreeFile Node where
  name := Node.name
  access := Node.access

end FileEndpoints
