import FileEndpoints.Time.Instant

namespace FileEndpoints

open Time (Instant)

inductive LogLevel where
  | debug
  | info
  | error
deriving DecidableEq, Repr

def LogLevel.name : LogLevel → String
  | debug => "DEBUG"
  | info => "INFO"
  | error => "ERROR"

structure LogEntry where
  time : Instant
  level : LogLevel
  message : String
deriving DecidableEq, Repr

def LogEntry.line (e : LogEntry) : String :=
  "[" ++ e.time.stamp ++ "] [" ++ e.level.name ++ "] " ++ e.message ++ "\n"

/-- Log entries, the earliest first. None is ever dropped. -/
structure AuditLog where
  entries : List LogEntry := []
deriving DecidableEq, Repr

namespace AuditLog

def append (l : AuditLog) (time : Instant) (level : LogLevel) (message : String) : AuditLog :=
  ⟨l.entries ++ [⟨time, level, message⟩]⟩

def render (l : AuditLog) : String :=
  String.join (l.entries.map LogEntry.line)

end AuditLog

end FileEndpoints
