import FileEndpoints.Yaml.Token.Property

namespace FileEndpoints.Yaml

/-- A token. Block collections, which are laid out by indentation, have tokens for their beginning
and their end all the same. -/
inductive Token where
  | directive (d : Directive)
  | documentStart
  | documentEnd
  | blockSequenceStart
  | blockMappingStart
  | blockEnd
  | flowSequenceStart
  | flowSequenceEnd
  | flowMappingStart
  | flowMappingEnd
  | blockEntry
  | flowEntry
  | key
  | value
  | anchor (name : String)
  | aliasOf (name : String)
  | tag (name : TagName)
  | scalar (text : String) (plain : Bool)
deriving DecidableEq, Repr

end FileEndpoints.Yaml
