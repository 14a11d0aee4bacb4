import FileEndpoints.Error
import FileEndpoints.Text.Blank
import FileEndpoints.Text.Lowercase
import FileEndpoints.Text.Numeral

namespace FileEndpoints.Console

inductive Command where
  | list (path : String)
  | stat (path : String)
  | cat (path : String) (offset size : Int)
  | write (path text : String)
  | readme (mount : String)
  | mounts
  | help
  | quit
deriving DecidableEq, Repr

inductive Usage where
  | stat
  | cat
  | write
  | readme
deriving DecidableEq, Repr

def Usage.text : Usage → String
  | stat => "stat <path>"
  | cat => "cat <path> [offset [n]]"
  | write => "write <path> <text...>"
  | readme => "readme <mount>"

inductive LineError where
  | unknownCommand (name : String)
  | usage (u : Usage)
  | endpoint (e : Error)
deriving DecidableEq, Repr

def LineError.message : LineError → String
  | unknownCommand name => "unknown command: " ++ name ++ " (try help)"
  | usage u => "usage: " ++ u.text
  | endpoint e => e.message

/-- The first word of an argument list, which must be there. -/
def required (u : Usage) (arguments : List Char) : Except LineError String :=
  match (Text.splitWord arguments).1 with
  | [] => .error (.usage u)
  | word => .ok (String.ofList word)

def numeric (default : Int) (word : Option (List Char)) : Except LineError Int :=
  match word with
  | none => .ok default
  | some w =>
    match Text.int64? w with
    | some n => .ok n
    | none => .error (.usage .cat)

/-- The command `cat`: a path, an offset and a size. -/
def parseCat (arguments : List Char) : Except LineError Command :=
  match Text.words arguments with
  | [] => .error (.usage .cat)
  | path :: numbers => do
    let offset ← numeric 0 numbers[0]?
    let size ← numeric (-1) numbers[1]?
    return .cat (String.ofList path) offset size

/-- The command `write`: a path and the rest of the line as it is. -/
def parseWrite (arguments : List Char) : Except LineError Command :=
  match Text.splitWord arguments with
  | ([], _) => .error (.usage .write)
  | (path, text) => .ok (.write (String.ofList path) (String.ofList text))

def parseList (arguments : List Char) : Command :=
  match (Text.splitWord arguments).1 with
  | [] => .list "/"
  | path => .list (String.ofList path)

def parseNamed (name : String) (arguments : List Char) : Except LineError Command :=
  match name with
  | "ls" => .ok (parseList arguments)
  | "stat" => (required .stat arguments).map .stat
  | "cat" => parseCat arguments
  | "write" => parseWrite arguments
  | "readme" => (required .readme arguments).map .readme
  | "mounts" => .ok .mounts
  | "help" => .ok .help
  | "?" => .ok .help
  | "quit" => .ok .quit
  | "exit" => .ok .quit
  | other => .error (.unknownCommand other)

/-- The command on a line. A line without words or with a number sign in front holds none. -/
def Command.parse (line : String) : Except LineError (Option Command) :=
  match Text.trim line.toList with
  | [] => .ok none
  | '#' :: _ => .ok none
  | s =>
    let (name, arguments) := Text.splitWord s
    (parseNamed (Text.lowercase (String.ofList name)) arguments).map some

end FileEndpoints.Console
