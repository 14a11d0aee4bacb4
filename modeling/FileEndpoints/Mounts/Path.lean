import FileEndpoints.Text.Blank

namespace FileEndpoints.MountPath

def dropSlashes (s : List Char) : List Char :=
  (s.reverse.dropWhile fun c => c == '/').reverse

def normalizeChars (s : List Char) : List Char :=
  match dropSlashes (Text.trim s) with
  | [] => ['/']
  | c :: s => if c = '/' then c :: s else '/' :: c :: s

/-- The normal form of a path: the root, or a path with a slash in front and none at its end. Blanks
around the path are dropped first, so one before the slashes at its end stays. -/
def normalize (path : String) : String :=
  String.ofList (normalizeChars path.toList)

/-- Whether a normal path can be a mount point: it is not the root and has no further slash. -/
def isMountPoint (path : String) : Bool :=
  path != "/" && !(path.toList.drop 1).contains '/'

/-- The path below a mount point, which is the root for the mount point itself. -/
def below? (point path : String) : Option String :=
  match point.toList.isPrefixOf? path.toList with
  | some [] => some "/"
  | some ('/' :: rest) => some (String.ofList ('/' :: rest))
  | _ => none

/-- The name under which a mount point is listed: the path without slashes in front. -/
def listedName (point : String) : String :=
  String.ofList (point.toList.dropWhile fun c => c == '/')

end FileEndpoints.MountPath
