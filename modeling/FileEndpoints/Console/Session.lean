import FileEndpoints.Console.Run

namespace FileEndpoints.Console

/-- The lines of an input, each with its line feed if it has one. -/
def lines : Bytes → List Bytes
  | [] => []
  | b :: bs =>
    if b = 10 then [b] :: lines bs
    else
      match lines bs with
      | [] => [[b]]
      | l :: ls => (b :: l) :: ls

def prompt : String := "> "

/-- A text with a line feed at its end, unless it is empty. -/
def withLineEnd (s : String) : String :=
  match s.toList.getLast? with
  | none => s
  | some c => if c = '\n' then s else s ++ "\n"

/-- What is printed for a line. -/
def printed : Except LineError (Option Response) → String
  | .ok (some (.output text)) => withLineEnd text
  | .ok _ => ""
  | .error e => "error: " ++ e.message ++ "\n"

/-- A line of the input, and the surroundings in which its command runs. -/
structure Turn where
  around : Surroundings
  line : Bytes

/-- What comes of a line, unless it ends the session. -/
def Turn.outcome? (turn : Turn) (t : MountTable) : Option LineOutcome :=
  (Text.decode? turn.line).bind fun line =>
    let o := runLine turn.around t line
    match o.answer with
    | .ok (some .quit) => none
    | _ => some o

structure Session where
  output : String
  table : MountTable
  effects : List Effect := []

/-- Runs a session until the input ends, a line is not text, or a command asks for the end. -/
def play (t : MountTable) : List Turn → Session
  | [] => { output := prompt, table := t }
  | turn :: turns =>
    match turn.outcome? t with
    | none => { output := prompt, table := t }
    | some o =>
      let s := play o.table turns
      { s with output := prompt ++ printed o.answer ++ s.output, effects := o.effects ++ s.effects }

/-- Runs a session and then shuts every endpoint down. -/
def session (t : MountTable) (turns : List Turn) (atEnd : Surroundings) : Session :=
  let s := play t turns
  { s with table := (s.table.shutdownAll atEnd).state }

end FileEndpoints.Console
