import FileEndpoints.Yaml.Glyph

namespace FileEndpoints.Yaml

/-- What has been read of a gap inside a scalar, in reverse. Spaces within a line belong to the
scalar. Around line breaks they are dropped; a single break becomes a space, and of several the
first is dropped. -/
inductive Gap where
  | inline (spaces : List Char)
  /-- Line breaks, after one that was escaped or without one. -/
  | broken (escaped : Bool) (breaks : List Char)
deriving DecidableEq, Repr

namespace Gap

def none : Gap := inline []

def isBroken : Gap → Bool
  | inline _ => false
  | broken _ _ => true

def push (c : Char) : Gap → Gap
  | inline spaces => if isBreak c then broken false [c] else inline (c :: spaces)
  | broken escaped breaks => broken escaped (if isBreak c then c :: breaks else breaks)

/-- The characters that a gap adds to the scalar, in reverse. -/
def text : Gap → List Char
  | inline spaces => spaces
  | broken true breaks => breaks
  | broken false ['\n'] => [' ']
  | broken false breaks => if breaks.getLast? = some '\n' then breaks.dropLast else breaks

end Gap

end FileEndpoints.Yaml
