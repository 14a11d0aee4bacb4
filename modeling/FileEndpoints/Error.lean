namespace FileEndpoints

/-- An operation that would change the set of files, which is fixed. -/
inductive StructureChange where
  | create
  | mkdir
  | remove
  | removeAll
  | rename
  | chmod
deriving DecidableEq, Repr

def StructureChange.name : StructureChange → String
  | create => "create"
  | mkdir => "mkdir"
  | remove => "remove"
  | removeAll => "removeall"
  | rename => "rename"
  | chmod => "chmod"

inductive Error where
  | malformedSettings
  | unknownPlugin (name : String)
  | unreadablePlan
  | invalidPlan
  | missingSecret (message : String)
  | transport (message : String)
  | invalidPayload (message : String)
  | execution (message : String)
  | unsupported (change : StructureChange)
  | noSuchPath (path : String)
  | notADirectory (path : String)
  | notReadable (path : String)
  | notWritable (path : String)
  | poisoned
  | mountInUse (path : String)
  /-- An endpoint prepared a remote call and has no transport. -/
  | noTransport
  | crashed
deriving DecidableEq, Repr

def Error.message : Error → String
  | malformedSettings => "invalid config json: the document is not JSON"
  | unknownPlugin name => "Parse error: unknown plugin: " ++ name
  | unreadablePlan => "Parse error: Failed to read config: the file cannot be read as text"
  | invalidPlan => "Parse error: Failed to parse config: the text is not a list of mounts"
  | missingSecret message => message
  | transport message => message
  | invalidPayload message => message
  | execution message => message
  | unsupported change => change.name ++ " not supported"
  | noSuchPath path => "unsupported path: " ++ path
  | notADirectory path => "not a directory: " ++ path
  | notReadable path => "read not supported on " ++ path
  | notWritable path => "write not supported on " ++ path
  | poisoned => "Internal error: lock poisoned"
  | mountInUse path => "Internal error: mount point " ++ path ++ " already in use"
  | noTransport => "Internal error: no transport configured"
  | crashed => "Internal error: the operation crashed"

end FileEndpoints
