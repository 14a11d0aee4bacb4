import FileEndpoints.Endpoint.Eager
import FileEndpoints.Remote.SearchResults

namespace FileEndpoints

structure SearchSettings where
  secret : SecretSource :=
    { defaultVariable := WebSearch.secretVariable
      missing := "PERPLEXITY_API_KEY is not set and no api_key provided" }
  url : String := WebSearch.defaultUrl
  /-- The number of results asked for when a payload does not say. -/
  maxResults : Int := 3
  /-- How long to wait for a reply, in milliseconds, if positive. -/
  timeout : Int := 30000
deriving DecidableEq, Repr

/-- The search endpoint: a query written to its request file runs a web search. -/
abbrev SearchEndpoint := Eager SearchSettings

namespace SearchSettings

def missingQuery : String := "request missing query"

def readme : String :=
  "# SimpCurlFS\n" ++
  "Simple Perplexity search filesystem.\n\n" ++
  "## Files\n" ++
  "- /request (write JSON: \x7b\"query\":\"...\", \"max_results\":3\x7d)\n" ++
  "- /response.json (raw JSON from API)\n" ++
  "- /response.txt (formatted summary)\n\n" ++
  "Provide PERPLEXITY_API_KEY env or api_key config.\n"

def merge (s : SearchSettings) (p : Patch) : SearchSettings :=
  { secret :=
      { s.secret with
        explicit := (p.firstString? ["api_key"]).or s.secret.explicit
        variableName := (p.firstString? ["api_key_env"]).or s.secret.variableName }
    url := (p.string? "endpoint").getD s.url
    maxResults := (p.int? "default_max_results").getD s.maxResults
    timeout := (p.int? "timeout_ms").getD s.timeout }

/-- The query of a payload and the number of results it asks for. A payload that is not JSON is the
query itself. -/
def decode (data : Bytes) : Option String × Option Int :=
  match Json.ofBytes? data with
  | some v => ((v.get? "query").bind Json.asString?, (v.get? "max_results").bind Json.asInt?)
  | none => (some (Text.decodeLossy data), none)

/-- The query of a payload, which must not be empty, and the number of results to ask for. -/
def parse (s : SearchSettings) (data : Bytes) : Except Error (String × Int) :=
  let (query, count) := decode data
  match nonEmpty? query with
  | none => .error (.invalidPayload missingQuery)
  | some q => .ok (q, (count.filter fun n => decide (0 < n)).getD s.maxResults)

def waitTime (s : SearchSettings) : Nat :=
  if 0 < s.timeout then s.timeout.toNat else 30000

def compose (s : SearchSettings) (env : Environment) (data : Bytes) :
    Except Error (Request × Option Int) := do
  let (query, count) ← s.parse data
  let bearer ← s.secret.resolve env
  let body := (WebSearch.body query count).canonical
  return ({ url := s.url, bearer, body, timeout := s.waitTime }, some count)

instance : RemoteService SearchSettings where
  profile :=
    { owner := "simpcurlfs", sizes := .zero
      emptyRaw := "No response yet\n", emptySummary := "No response yet\n" }
  readme := readme
  initial := {}
  missing := missingQuery
  merge := merge
  compose := compose
  summarize s limit raw := WebSearch.format raw (limit.getD s.maxResults)

end SearchSettings

end FileEndpoints
