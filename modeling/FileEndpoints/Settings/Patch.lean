import FileEndpoints.Error
import FileEndpoints.Json.Reader
import FileEndpoints.Text.Blank

namespace FileEndpoints

/-- The members of a settings document. A key that is not recognised, and a recognised one that
holds a value of another type, leaves its setting as it was. -/
structure Patch where
  fields : List (String × Json) := []

namespace Patch

/-- The members of a value: those of an object, and none of anything else. -/
def ofJson : Json → Patch
  | .obj members => ⟨members⟩
  | _ => {}

/-- Reads a document. One that is missing or blank has no members. -/
def parse (raw : Option String) : Except Error Patch :=
  match raw with
  | none => .ok {}
  | some s =>
    if s.toList.all Text.isBlank then .ok {}
    else
      match Json.parse? s with
      | none => .error .malformedSettings
      | some v => .ok (ofJson v)

def isEmpty (p : Patch) : Bool :=
  p.fields.isEmpty

def get? (p : Patch) (key : String) : Option Json :=
  p.fields.lookup key

def string? (p : Patch) (key : String) : Option String :=
  (p.get? key).bind Json.asString?

/-- The string that the first of several keys holds which holds one. -/
def firstString? (p : Patch) (keys : List String) : Option String :=
  keys.findSome? p.string?

/-- The whole number of 64 signed bits that a key holds. -/
def int? (p : Patch) (key : String) : Option Int :=
  (p.get? key).bind Json.asInt?

def number? (p : Patch) (key : String) : Option Float :=
  (p.get? key).bind Json.asFloat?

end Patch

end FileEndpoints
