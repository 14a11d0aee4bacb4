import FileEndpoints.AuditLog
import FileEndpoints.Endpoint.Basic
import FileEndpoints.ResponseCache
import FileEndpoints.Settings.Patch
import FileEndpoints.Skill.Status
import FileEndpoints.Tree
import FileEndpoints.Window

namespace FileEndpoints

open Time (Instant)

inductive SkillFile where
  | metadata
  | instructions
  | execute
  | result
  | status
  | log
deriving DecidableEq, Repr

instance : TreeFile SkillFile where
  name
    | .metadata => "metadata"
    | .instructions => "instructions"
    | .execute => "execute"
    | .result => "result"
    | .status => "status"
    | .log => "log"
  access
    | .metadata | .instructions => .readWrite
    | .execute => .trigger
    | .result | .status | .log => .readOnly

/-- An endpoint that queues what is written to `/execute` and runs its skill on it when the result
is read. The result is shown until another payload is queued or its time to live is over, and a run
that fails leaves it in place. -/
structure Skill where
  skillName : String := "skillfs-mvp"
  metadata : Bytes := Text.encode "owner=unknown"
  instructions : Bytes := Text.encode "Describe how to process incoming payloads."
  /-- How many seconds a result is good for; zero means for ever. -/
  ttl : Nat := 3600
  cache : ResponseCache := {}
  state : ExecutionState := .idle
  /-- What the status file shows: a copy made at each change of state. -/
  status : StatusSnapshot
  log : AuditLog := {}
  /-- How long the latest successful run took, in nanoseconds. -/
  lastElapsed : Nat := 0
  /-- Whether it has been configured, and not shut down since. -/
  active : Bool := false

namespace Skill

def name : String := "skillsfs"

def readme : String :=
  "# SkillsFS (MVP)\n" ++
  "- write JSON or text to /execute to queue a run\n" ++
  "- read /result to trigger lazy execution (first read runs, later reads hit cache)\n" ++
  "- /status exposes JSON state, /log keeps an append-only log\n" ++
  "- /metadata and /instructions are plain read/write files\n\n" ++
  "Config: skill_name, metadata, instructions, cache_ttl_seconds (0 = never expire).\n"

/-- What stands in the result file before anything has been queued. -/
def noPayload : String := "No execution payload yet. Write to /execute first.\n"

def tree : Tree SkillFile :=
  { owner := name, files := [.metadata, .instructions, .execute, .result, .status, .log] }

def note (k : Skill) (time : Instant) (level : LogLevel) (message : String) : Skill :=
  { k with log := k.log.append time level message }

/-- Changes the state and makes the status file show the endpoint as it is then. -/
def enter (k : Skill) (state : ExecutionState) (cacheHit : Bool) : Skill :=
  { k with
    state
    status := .take k.skillName state k.cache.pending cacheHit k.cache.executedAt
      (millisOfNanos k.lastElapsed) }

def create (time : Instant) : Skill :=
  let k : Skill := { status := .take "skillfs-mvp" .idle false false none 0 }
  k.note time .info "SkillsFS plugin created"

/-- Takes over what a settings document sets. A negative time to live counts as zero. -/
def merge (k : Skill) (p : Patch) : Skill :=
  { k with
    skillName := (p.string? "skill_name").getD k.skillName
    metadata := ((p.string? "metadata").map Text.encode).getD k.metadata
    instructions := ((p.string? "instructions").map Text.encode).getD k.instructions
    ttl := ((p.int? "cache_ttl_seconds").map Int.toNat).getD k.ttl }

def configure (s : Services) (k : Skill) (document : Option String) : Outcome Skill Unit :=
  match Patch.parse document with
  | .error err => { answer := .error err, state := k }
  | .ok patch =>
    let k := { k.merge patch with active := true }
    .timed s.clock k fun time =>
      { answer := .ok (), state := (k.note time .info "SkillsFS initialized").enter .idle false }

def shutdown (s : Services) (k : Skill) : Outcome Skill Unit :=
  let k := { k with active := false }
  .timed s.clock k fun time =>
    { answer := .ok (), state := k.note time .info "SkillsFS shutdown" }

/-- The greatest age of a result in milliseconds. It stays within 64 signed bits. -/
def maxAge (k : Skill) : Int :=
  min (1000 * k.ttl) Text.maxInt64

/-- Whether the result may be shown without another run. -/
def isFresh (k : Skill) (time : Instant) : Bool :=
  !k.cache.pending && k.cache.summary.isSome &&
    (k.ttl == 0 || k.cache.executedAt.any fun start => time.millisSince start ≤ k.maxAge)

def invocation (k : Skill) (time : Instant) (payload : Bytes) : Invocation :=
  { skill := k.skillName
    instructions := Text.decodeLossy k.instructions
    parameters := Text.decodeLossy payload
    executedAt := time }

def beginRun (k : Skill) (time : Instant) : Skill :=
  (k.enter .running false).note time .info "Executing skill payload"

def completeRun (k : Skill) (started : Instant) (run : Run) (text : String) : Skill :=
  let k := { k with lastElapsed := run.elapsed, cache := k.cache.install none text started }
  (k.enter .completed false).note run.endedAt .info "Skill execution completed"

def failRun (k : Skill) (run : Run) (message : String) : Skill :=
  (k.enter .failed false).note run.endedAt .error message

def shownResult (k : Skill) : Bytes :=
  Text.encode (k.cache.summary.getD "")

/-- Runs the skill on a payload and gives the result. A crash leaves the endpoint running. -/
def runOn (s : Services) (k : Skill) (time : Instant) (payload : Bytes) : Outcome Skill Bytes :=
  let invocation := k.invocation time payload
  let begun := k.beginRun time
  let run := s.run invocation
  let effects := [.ran invocation]
  match run.outcome with
  | .completed text =>
    let k := begun.completeRun time run text
    { answer := .ok k.shownResult, state := k, effects }
  | .failed message =>
    let k := begun.failRun run message
    let shown := (k.cache.summary.getD (message ++ "\n"))
    { answer := .ok (Text.encode shown), state := k, effects }
  | .crashed => { answer := .error .crashed, state := begun, effects }

def currentResult (s : Services) (k : Skill) : Outcome Skill Bytes :=
  match k.cache.payload.filter fun data => !isBlankPayload data with
  | none => { answer := .ok (Text.encode noPayload), state := k }
  | some payload => .timed s.clock k fun time =>
    if k.isFresh time then
      let k := (k.enter .completed true).note time .debug "Cache hit for /result"
      { answer := .ok k.shownResult, state := k }
    else runOn s k time payload

/-- A content, or a text that stands for it when it is empty. -/
def orPlaceholder (content : Bytes) (placeholder : String) : Bytes :=
  if content.isEmpty then Text.encode placeholder else content

def content (s : Services) (k : Skill) : SkillFile → Outcome Skill Bytes
  | .metadata => { answer := .ok (orPlaceholder k.metadata "No metadata set\n"), state := k }
  | .instructions =>
    { answer := .ok (orPlaceholder k.instructions "No instructions set\n"), state := k }
  | .status => { answer := .ok (Text.encode k.status.render), state := k }
  | .log =>
    { answer := .ok (orPlaceholder (Text.encode k.log.render) "No log entries yet\n"), state := k }
  | .result | .execute => currentResult s k

def read (s : Services) (k : Skill) (path : String) (offset size : Int) : Outcome Skill Bytes :=
  match tree.readable path with
  | .error err => { answer := .error err, state := k }
  | .ok f =>
    let o := content s k f
    { o with answer := o.answer.map fun value => readWindow value offset size }

def size (k : Skill) : SkillFile → Nat
  | .metadata => k.metadata.length
  | .instructions => k.instructions.length
  | .execute => 0
  | .result => k.shownResult.length
  | .status => (Text.encode k.status.render).length
  | .log => (Text.encode k.log.render).length

def queue (s : Services) (k : Skill) (data : Bytes) : Outcome Skill WriteStep :=
  if isBlankPayload data then
    { answer := .error (.invalidPayload "no execution payload"), state := k }
  else
    let k := { k with cache := k.cache.submit data }.enter .pending false
    .timed s.clock k fun time =>
      { answer := .ok .done, state := k.note time .info "Received new execution payload" }

def beginWrite (s : Services) (k : Skill) (path : String) (data : Bytes) :
    Outcome Skill WriteStep :=
  match tree.writable path with
  | .error err => { answer := .error err, state := k }
  | .ok .metadata =>
    let k := { k with metadata := data }
    .timed s.clock k fun time =>
      { answer := .ok .done, state := k.note time .info "Updated metadata" }
  | .ok .instructions =>
    let k := { k with instructions := data }
    .timed s.clock k fun time =>
      { answer := .ok .done, state := k.note time .info "Updated instructions" }
  | .ok _ => queue s k data

instance : Endpoint Skill where
  name _ := name
  readme _ := readme
  stat s k path := tree.stat s.now k.size path
  list s k path := tree.list s.now k.size path
  configure := configure
  shutdown := shutdown
  read := read
  beginWrite := beginWrite

end Skill

end FileEndpoints
