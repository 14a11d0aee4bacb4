import FileEndpoints.Text.Utf8

namespace FileEndpoints.Yaml

/-- A tag in full, with what its handle stands for. It is made of bytes, since the escapes in it
need not add up to characters. A zero byte ends it wherever it stands. -/
structure Tag where
  bytes : Bytes
deriving DecidableEq, Repr

namespace Tag

def untilZero (bs : Bytes) : Bytes :=
  bs.takeWhile fun b => b != 0

def core (name : String) : Tag :=
  ⟨Text.encode ("tag:yaml.org,2002:" ++ name)⟩

/-- What follows the exclamation mark at the beginning of a tag. -/
def afterMark? (t : Tag) : Option Bytes :=
  match t.bytes with
  | [] => none
  | b :: bs => if b = 0x21 then some bs else none

/-- Whether a tag names a type that the text chose itself: a name, which may be empty, after an
exclamation mark. -/
def isLocal (t : Tag) : Bool :=
  (t.afterMark?.bind Text.decode?).isSome

end Tag

end FileEndpoints.Yaml
