import FileEndpoints.Error

namespace FileEndpoints

abbrev Environment := String → Option String

def nonEmpty? (s : Option String) : Option String :=
  s.filter fun s => !s.isEmpty

/-- Where a secret comes from: a configured value, or else a configured environment variable, or
else a built-in one. Empty values count as absent, and the environment is asked when the secret is
needed. -/
structure SecretSource where
  explicit : Option String := none
  variableName : Option String := none
  defaultVariable : String
  missing : String
deriving DecidableEq, Repr

def SecretSource.resolve (s : SecretSource) (env : Environment) : Except Error String :=
  let named := nonEmpty? ((nonEmpty? s.variableName).bind env)
  match (nonEmpty? s.explicit).or (named.or (nonEmpty? (env s.defaultVariable))) with
  | some secret => .ok secret
  | none => .error (.missingSecret s.missing)

def SecretSource.environmentNames (s : SecretSource) : List String :=
  s.variableName.toList ++ [s.defaultVariable]

end FileEndpoints
