import FileEndpoints.Json.Basic
import FileEndpoints.Time.Instant

namespace FileEndpoints

open Time (Instant)

structure FileInfo where
  name : String
  /-- The length of the content in bytes. -/
  size : Nat
  isDir : Bool
  /-- The second in which the record was made. -/
  modTime : Int
  owner : String
deriving DecidableEq, Repr

namespace FileInfo

def file (now : Instant) (owner name : String) (size : Nat) : FileInfo :=
  { name, size, isDir := false, modTime := now.seconds, owner }

def directory (now : Instant) (owner name : String) : FileInfo :=
  { name, size := 0, isDir := true, modTime := now.seconds, owner }

/-- The permission bits: 644 for files and 755 for directories, in octal. -/
def mode (i : FileInfo) : Nat :=
  if i.isDir then 0o755 else 0o644

def kind (i : FileInfo) : String :=
  if i.isDir then "directory" else "file"

def toJson (i : FileInfo) : Json :=
  .obj [("name", .str i.name), ("size", .ofInt i.size), ("mode", .ofInt i.mode),
    ("mod_time", .ofInt i.modTime), ("is_dir", .bool i.isDir),
    ("meta", .obj [("name", .str i.owner), ("kind", .str i.kind), ("content", .str "\x7b\x7d")])]

end FileInfo

end FileEndpoints
