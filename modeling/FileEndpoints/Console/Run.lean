import FileEndpoints.Console.Command
import FileEndpoints.Mounts.Table

namespace FileEndpoints.Console

def helpText : String :=
  "Commands:\n" ++
  "ls [path]                 list a directory\n" ++
  "stat <path>               show a stat record\n" ++
  "cat <path> [offset [n]]   read a file\n" ++
  "write <path> <text...>    overwrite a file with the rest of the line\n" ++
  "readme <mount>            show an endpoint's documentation\n" ++
  "mounts                    list mounted endpoints\n" ++
  "help                      show this message\n" ++
  "quit                      leave the console\n"

inductive Response where
  | output (text : String)
  | quit
deriving DecidableEq, Repr

structure LineOutcome where
  answer : Except LineError (Option Response)
  table : MountTable
  effects : List Effect := []

/-- The line of a directory entry: a directory has a slash after its name, and a file has its size,
both in columns that widen when they must. -/
def entryLine (i : FileInfo) : String :=
  if i.isDir then i.name ++ "/\n"
  else Text.padRight 16 i.name ++ Text.padLeft 8 (toString i.size) ++ "\n"

def mountLine (m : String × String) : String :=
  Text.padRight 16 m.1 ++ m.2 ++ "\n"

/-- The outcome of a command that leaves the table alone. -/
def shown (t : MountTable) (answer : Except Error String) : LineOutcome :=
  { answer := (answer.map fun text => some (.output text)).mapError .endpoint, table := t }

/-- The outcome of a command that operates on the table. -/
def acted {α : Type} (o : Outcome MountTable α) (text : α → String) : LineOutcome :=
  { answer := (o.answer.map fun a => some (.output (text a))).mapError .endpoint
    table := o.state, effects := o.effects }

def statText (w : Surroundings) (t : MountTable) (path : String) : Except Error String := do
  match ← t.stat w path with
  | some info => return info.toJson.renderIndented ++ "\n"
  | none => throw (.noSuchPath path)

/-- The documentation of the endpoint at a mount point. -/
def readmeText (w : Surroundings) (t : MountTable) (path : String) : Except Error String :=
  match t.mount? path with
  | some m => t.view w m fun _ e => e.readme
  | none => .error (.noSuchPath path)

def run (w : Surroundings) (t : MountTable) : Command → LineOutcome
  | .list path => shown t ((t.list w path).map fun l => String.join (l.map entryLine))
  | .stat path => shown t (statText w t path)
  | .cat path offset size => acted (t.read w path offset size) Text.decodeLossy
  | .write path text =>
    let data := Text.encode text
    acted (t.write w path data) fun _ =>
      "wrote " ++ toString data.length ++ " bytes to " ++ path ++ "\n"
  | .readme path => shown t (readmeText w t path)
  | .mounts => shown t (.ok (String.join (t.listMounts.map mountLine)))
  | .help => shown t (.ok helpText)
  | .quit => { answer := .ok (some .quit), table := t }

def runLine (w : Surroundings) (t : MountTable) (line : String) : LineOutcome :=
  match Command.parse line with
  | .error e => { answer := .error e, table := t }
  | .ok none => { answer := .ok none, table := t }
  | .ok (some c) => run w t c

end FileEndpoints.Console
