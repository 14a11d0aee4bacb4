import FileEndpoints.Endpoint.Search
import FileEndpoints.Endpoint.Summary
import FileEndpoints.Skill.Endpoint
import FileEndpoints.Text.Lowercase

namespace FileEndpoints

open Time (Reading)

inductive Plugin where
  | search
  | summary
  | skill
deriving DecidableEq, Repr

namespace Plugin

def all : List Plugin := [search, summary, skill]

def name : Plugin → String
  | search => (RemoteService.profile SearchSettings).owner
  | summary => (RemoteService.profile SummarySettings).owner
  | skill => Skill.name

def shortName : Plugin → String
  | search => "search"
  | summary => "summary"
  | skill => "skills"

def readme : Plugin → String
  | search => SearchSettings.readme
  | summary => SummarySettings.readme
  | skill => Skill.readme

/-- The kind of a full or short name. Case and blanks around the name do not matter. -/
def ofName (name : String) : Except Error Plugin :=
  let lowered := Text.lowercase (String.ofList (Text.trim name.toList))
  match all.find? fun p => p.name == lowered || p.shortName == lowered with
  | some p => .ok p
  | none => .error (.unknownPlugin lowered)

end Plugin

inductive BuiltIn where
  | search (e : SearchEndpoint)
  | summary (e : SummaryEndpoint)
  | skill (k : Skill)

namespace BuiltIn

/-- A fresh endpoint. A skill looks at its clock already then. -/
def create (clock : Reading) : Plugin → Except Error BuiltIn
  | .search => .ok (search Eager.create)
  | .summary => .ok (summary Eager.create)
  | .skill => clock.map fun time => skill (Skill.create time)

/-- The variables that an operation may look up in the environment. -/
def environmentNames : BuiltIn → List String
  | search e => e.settings.secret.environmentNames
  | summary e => e.settings.secret.environmentNames
  | skill _ => []

instance : Endpoint BuiltIn where
  name
    | search e => Endpoint.name e
    | summary e => Endpoint.name e
    | skill k => Endpoint.name k
  readme
    | search e => Endpoint.readme e
    | summary e => Endpoint.readme e
    | skill k => Endpoint.readme k
  stat s
    | search e, path => Endpoint.stat s e path
    | summary e, path => Endpoint.stat s e path
    | skill k, path => Endpoint.stat s k path
  list s
    | search e, path => Endpoint.list s e path
    | summary e, path => Endpoint.list s e path
    | skill k, path => Endpoint.list s k path
  validate
    | search e, document => Endpoint.validate e document
    | summary e, document => Endpoint.validate e document
    | skill k, document => Endpoint.validate k document
  configure s
    | search e, document => (Endpoint.configure s e document).mapState search
    | summary e, document => (Endpoint.configure s e document).mapState summary
    | skill k, document => (Endpoint.configure s k document).mapState skill
  shutdown s
    | search e => (Endpoint.shutdown s e).mapState search
    | summary e => (Endpoint.shutdown s e).mapState summary
    | skill k => (Endpoint.shutdown s k).mapState skill
  read s
    | search e, path, offset, size => (Endpoint.read s e path offset size).mapState search
    | summary e, path, offset, size => (Endpoint.read s e path offset size).mapState summary
    | skill k, path, offset, size => (Endpoint.read s k path offset size).mapState skill
  beginWrite s
    | search e, path, data => (Endpoint.beginWrite s e path data).mapState search
    | summary e, path, data => (Endpoint.beginWrite s e path data).mapState summary
    | skill k, path, data => (Endpoint.beginWrite s k path data).mapState skill
  finishWrite s
    | search e, call, reply => (Endpoint.finishWrite s e call reply).mapState search
    | summary e, call, reply => (Endpoint.finishWrite s e call reply).mapState summary
    | skill k, call, reply => (Endpoint.finishWrite s k call reply).mapState skill
  connected
    | search e => Endpoint.connected e
    | summary e => Endpoint.connected e
    | skill k => Endpoint.connected k

end BuiltIn

end FileEndpoints
