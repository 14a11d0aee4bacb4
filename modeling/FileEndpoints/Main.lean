import FileEndpoints.CommandLine
import FileEndpoints.Console.Session
import FileEndpoints.Skill.Transcript
import Std.Time.DateTime.Timestamp

namespace FileEndpoints.Program

open Time (Instant)

def now : IO Instant := do
  let time ← Std.Time.Timestamp.now
  return ⟨time.toNanosecondsSinceUnixEpoch.val / 1000⟩

/-- The surroundings of an operation that begins now, with the variables it may look up. -/
def surroundings (names : List String) : IO Surroundings := do
  let time := (← now).onMachine
  let env ← names.mapM fun name => return (name, ← IO.getEnv name)
  let machine : Services :=
    { now := time, clock := time, env := fun name => (env.lookup name).bind id
      post := Request.offline, run := Invocation.placeholderRun }
  return { given := machine, machine }

def content? (file : String) : IO (Option Bytes) := do
  try
    return some (← IO.FS.readBinFile file).toList
  catch _ =>
    return none

/-- The next line of a stream with its line feed, empty at the end. -/
partial def nextLine (input : IO.FS.Stream) (done : Bytes) : IO Bytes := do
  match (← input.read 1).toList with
  | [] => return done.reverse
  | b :: _ => if b = 10 then return (b :: done).reverse else nextLine input (b :: done)

partial def converse (input output : IO.FS.Stream) (t : MountTable) : IO MountTable := do
  output.putStr Console.prompt
  output.flush
  let line ← nextLine input []
  if line.isEmpty then return t
  let turn : Console.Turn := { around := ← surroundings t.environmentNames, line }
  match turn.outcome? t with
  | none => return t
  | some o =>
    output.putStr (Console.printed o.answer)
    converse input output o.table

/-- Prints what is left to print, and gives the exit code. -/
def finish (e : Ending) : IO UInt32 := do
  (← IO.getStdout).putStr e.output
  (← IO.getStderr).putStr e.complaint
  return UInt32.ofNat e.code

def run (planFile : String) : IO UInt32 := do
  let plan := MountPlan.orStandard (← content? planFile)
  match MountTable.ofPlan (← surroundings []) plan with
  | .error e => finish (.failedToMount e)
  | .ok t =>
    let t ← converse (← IO.getStdin) (← IO.getStdout) t
    match (t.shutdownAll (← surroundings [])).answer with
    | .ok _ => return 0
    | .error _ => return 1

/-- Why a file could not be written: the words of the system and its number for them. -/
def reason (e : IO.Error) : String :=
  match e with
  | .alreadyExists _ code words | .interrupted _ code words | .noFileOrDirectory _ code words
  | .invalidArgument _ code words | .permissionDenied _ code words
  | .resourceExhausted _ code words | .inappropriateType _ code words | .noSuchThing _ code words
  | .otherError code words | .resourceBusy code words | .resourceVanished code words
  | .unsupportedOperation code words | .hardwareFault code words
  | .unsatisfiedConstraints code words | .illegalOperation code words
  | .protocolError code words | .timeExpired code words =>
    words ++ " (os error " ++ toString code ++ ")"
  | .unexpectedEof | .userError _ => toString e

/-- Writes the standard plan to a file. The flush makes a full device refuse before the file
closes, where nobody would hear of it. -/
def writePlan (file : String) : IO UInt32 := do
  try
    IO.FS.withFile file .write fun out => do
      out.putStr MountPlan.standard.render
      out.flush
    finish (.wrotePlan file)
  catch e =>
    finish (.failedToWrite file (reason e))

end FileEndpoints.Program

open FileEndpoints in
def main (arguments : List String) : IO UInt32 :=
  match CommandLine.parse arguments with
  | .error e => Program.finish e
  | .ok (.run planFile) => Program.run planFile
  | .ok (.readme plugin) => Program.finish (.readme plugin)
  | .ok (.initConfig none) => Program.finish .showPlan
  | .ok (.initConfig (some file)) => Program.writePlan file
  | .ok .version => Program.finish .version
