import FileEndpoints.Error
import FileEndpoints.Mounts.Plan
import FileEndpoints.Text.Utf8
import FileEndpoints.Yaml.Value
import FileEndpoints.Yaml.Writer

namespace FileEndpoints

open Yaml (Document)

namespace MountPlan

/-- The value of a key, which may be missing but must not occur twice. -/
def field? (fields : List (String × Yaml.Node Nat)) (name : String) :
    Yaml.Reading (Option (Yaml.Node Nat)) :=
  match fields.filter fun f => f.1 == name with
  | [] => return none
  | [f] => return some f.2
  | _ => failure

def field (fields : List (String × Yaml.Node Nat)) (name : String) :
    Yaml.Reading (Yaml.Node Nat) := do
  match ← field? fields name with
  | some n => return n
  | none => failure

def readMount (d : Document) (n : Yaml.Node Nat) : Yaml.Reading MountSpec := do
  let fields ← d.fields n
  let plugin ← d.text (← field fields "plugin")
  let path ← d.text (← field fields "path")
  let settings ← match ← field? fields "config" with
    | none => pure none
    | some n => d.value? (Document.maxDepth - 3) n
  return { plugin, path, settings }

/-- Reads a plan: a mapping with a sequence of mounts. Keys that are not known are ignored, and none
of the others may occur twice. -/
def read (d : Document) (n : Yaml.Node Nat) : Yaml.Reading MountPlan := do
  let fields ← d.fields n
  let items ← d.items (← field fields "mounts")
  return ⟨← items.mapM (readMount d)⟩

def ofString? (s : String) : Option MountPlan :=
  (Document.ofString? s).bind fun d => d.read read

/-- The plan in a file, given the file's content if it exists. -/
def load (content : Option Bytes) : Except Error MountPlan :=
  match content.bind Text.decode? with
  | none => .error .unreadablePlan
  | some s =>
    match ofString? s with
    | none => .error .invalidPlan
    | some plan => .ok plan

def mountJson (m : MountSpec) : Json :=
  .obj [("plugin", .str m.plugin), ("path", .str m.path), ("config", m.settings.getD .null)]

def render (plan : MountPlan) : String :=
  Yaml.renderMembers [("mounts", .arr (plan.mounts.map mountJson))]

end MountPlan

end FileEndpoints
