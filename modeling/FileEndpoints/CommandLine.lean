import FileEndpoints.Mounts.PlanText
import FileEndpoints.Mounts.Table

namespace FileEndpoints

/-- How the program ends: its exit code, and what it has printed. -/
structure Ending where
  code : Nat := 0
  output : String := ""
  complaint : String := ""
deriving DecidableEq, Repr

namespace Ending

def usage : String :=
  "Usage: endpointfs <command>\n\nCommands:\n" ++
  "  run [--config FILE]          mount the configured endpoints and open a console\n" ++
  "  readme PLUGIN                print a plugin's documentation\n" ++
  "  init-config [--output FILE]  generate the default config\n" ++
  "  version                      show the version\n" ++
  "  help                         show this message\n"

def helped : Ending :=
  { output := usage }

def misused : Ending :=
  { code := 2, complaint := usage }

def version : Ending :=
  { output := "endpointfs v0.1.0\n" }

def readme (plugin : String) : Ending :=
  match Plugin.ofName plugin with
  | .ok p => { output := p.readme }
  | .error e =>
    let known := ", ".intercalate (Plugin.all.map Plugin.name)
    { code := 2, complaint := "error: " ++ e.message ++ " (known plugins: " ++ known ++ ")\n" }

def showPlan : Ending :=
  { output := MountPlan.standard.render ++
      "\n\nSave this to endpoints.yaml and adjust as needed.\n" }

/-- The end after the standard plan has been written to a file. -/
def wrotePlan (file : String) : Ending :=
  { output := "Wrote default config to " ++ file ++ "\n" }

def failedToWrite (file reason : String) : Ending :=
  { code := 1, complaint := "error: failed to write " ++ file ++ ": " ++ reason ++ "\n" }

def failedToMount (e : Error) : Ending :=
  { code := 1, complaint := "error: failed to mount endpoints: " ++ e.message ++ "\n" }

end Ending

inductive CommandLine where
  | run (planFile : String)
  | readme (plugin : String)
  | initConfig (file : Option String)
  | version
deriving DecidableEq, Repr

namespace CommandLine

def defaultPlanFile : String := "endpoints.yaml"

structure ValueOption where
  letter : Char
  word : String

inductive OptionUse where
  | attached (value : String)
  | separate
  | absent

def ValueOption.useOf (o : ValueOption) (argument : String) : OptionUse :=
  let s := argument.toList
  match ['-', o.letter].isPrefixOf? s, ("--" ++ o.word).toList.isPrefixOf? s with
  | some [], _ | _, some [] => .separate
  | some ('=' :: value), _ | _, some ('=' :: value) => .attached (String.ofList value)
  | some value, _ => .attached (String.ofList value)
  | none, _ => .absent

def looksLikeOption (argument : String) : Bool :=
  match argument.toList with
  | '-' :: _ :: _ => true
  | _ => false

def asksForHelp (argument : String) : Bool :=
  argument == "--help" || ['-', 'h'].isPrefixOf argument.toList

structure Arguments where
  value : Option String := none
  plain : List String := []

/-- One more argument that is no option, of at most `room`. -/
def Arguments.push (a : Arguments) (room : Nat) (argument : String) : Except Ending Arguments :=
  if a.plain.length < room then .ok { a with plain := argument :: a.plain } else .error .misused

/-- The value of the option, which may be given once. -/
def Arguments.withValue (a : Arguments) (value : String) : Except Ending Arguments :=
  if a.value.isSome then .error .misused else .ok { a with value }

/-- Reads the arguments of a command that knows at most one option. After two hyphens no argument is
an option. The first argument that is wrong or asks for help ends the program. -/
def readArguments (o : Option ValueOption) (room : Nat) (a : Arguments) :
    List String → Except Ending Arguments
  | [] => .ok a
  | "--" :: rest => rest.foldlM (·.push room ·) a
  | argument :: rest => do
    match (o.map fun o => o.useOf argument).getD .absent, rest with
    | .attached value, rest => readArguments o room (← a.withValue value) rest
    | .separate, [] => .error .misused
    | .separate, value :: rest =>
      if looksLikeOption value then .error .misused
      else readArguments o room (← a.withValue value) rest
    | .absent, rest =>
      if asksForHelp argument then .error .helped
      else if looksLikeOption argument then .error .misused
      else readArguments o room (← a.push room argument) rest

/-- Reads what the arguments ask for. The program ends at once if they are wrong or ask for help. -/
def parse : List String → Except Ending CommandLine
  | "run" :: rest => do
    let a ← readArguments (some ⟨'c', "config"⟩) 0 {} rest
    return .run (a.value.getD defaultPlanFile)
  | "readme" :: rest => do
    match (← readArguments none 1 {} rest).plain.head? with
    | some plugin => return .readme plugin
    | none => .error .misused
  | "init-config" :: rest => do
    return .initConfig (← readArguments (some ⟨'o', "output"⟩) 0 {} rest).value
  | "version" :: rest => do
    let _ ← readArguments none 0 {} rest
    return .version
  | ["help"] => .error .helped
  | ["help", command] =>
    if ["run", "readme", "init-config", "version", "help"].contains command then .error .helped
    else .error .misused
  | argument :: _ => .error (if asksForHelp argument then .helped else .misused)
  | [] => .error .misused

end CommandLine

/-- The plan in a file, or the standard plan if the file is missing or holds none. -/
def MountPlan.orStandard (content : Option Bytes) : MountPlan :=
  match MountPlan.load content with
  | .ok plan => plan
  | .error _ => .standard

end FileEndpoints
