import FileEndpoints.Endpoint.Eager
import FileEndpoints.Remote.Chat

namespace FileEndpoints

structure SummarySettings where
  model : String := Chat.defaultModel
  url : String := Chat.defaultUrl
  /-- How long to wait for a reply, in milliseconds, if positive. -/
  timeout : Int := 120000
  temperature : Float := 0.2
  systemPrompt : Option String := none
  secret : SecretSource :=
    { defaultVariable := Chat.secretVariable
      missing := "OpenAI API key not set (set OPENAI_API_KEY or openai_api_key(_env))" }

/-- The summary endpoint: a text written to its request file is summarised by a chat model. -/
abbrev SummaryEndpoint := Eager SummarySettings

namespace SummarySettings

def missingText : String := "request missing text"

def readme : String :=
  "# SummaryFS\n" ++
  "Summarize arbitrary text via OpenAI Chat Completions (default model gpt-4o-mini).\n\n" ++
  "## Files\n" ++
  "- /request (write JSON or plain text)\n" ++
  "- /response.json (raw response)\n" ++
  "- /response.txt (summary)\n\n" ++
  "Config: openai_model, openai_endpoint, openai_api_key(_env), timeout_ms, temperature, " ++
  "system_prompt.\n"

/-- Takes over what a settings document sets. Of two names for a setting the first listed wins. -/
def merge (s : SummarySettings) (p : Patch) : SummarySettings :=
  { model := (p.firstString? ["model", "openai_model"]).getD s.model
    url := (p.firstString? ["openai_endpoint", "endpoint"]).getD s.url
    timeout := (p.int? "timeout_ms").getD s.timeout
    temperature := (p.number? "temperature").getD s.temperature
    systemPrompt := (p.firstString? ["system_prompt"]).or s.systemPrompt
    secret :=
      { s.secret with
        explicit := (p.firstString? ["openai_api_key", "api_key"]).or s.secret.explicit
        variableName :=
          (p.firstString? ["openai_api_key_env", "api_key_env"]).or s.secret.variableName } }

/-- The text of a payload, if it is JSON and holds one, and the format it asks for. -/
def decode (data : Bytes) : Option String × Option String :=
  match Json.ofBytes? data with
  | some v => ((v.get? "text").bind Json.asString?, (v.get? "format").bind Json.asString?)
  | none => (none, none)

/-- The text to summarise, which is the whole payload if that names none, and the format. -/
def parse (data : Bytes) : Except Error (String × Option String) :=
  let (text, format) := decode data
  let text := (nonEmpty? text).getD (Text.decodeLossy data)
  if text.isEmpty then .error (.invalidPayload missingText) else .ok (text, format)

def conversation (s : SummarySettings) (text : String) (format : Option String) :
    Chat.Conversation :=
  { model := s.model
    temperature := if 0 < s.temperature then some s.temperature else none
    messages :=
      [{ role := .system, content := s.systemPrompt.getD Chat.defaultSystemPrompt },
        { role := .user, content := Chat.prompt s.systemPrompt text format }] }

def waitTime (s : SummarySettings) : Nat :=
  if 0 < s.timeout then s.timeout.toNat else 120000

def compose (s : SummarySettings) (env : Environment) (data : Bytes) :
    Except Error (Request × Option Int) := do
  let (text, format) ← parse data
  let bearer ← s.secret.resolve env
  let body := (s.conversation text format).toJson.canonical
  return ({ url := s.url, bearer, body, timeout := s.waitTime }, none)

instance : RemoteService SummarySettings where
  profile :=
    { owner := "summaryfs", sizes := .live
      emptyRaw := "No response yet\n", emptySummary := "No summary yet\n" }
  readme := readme
  initial := {}
  missing := missingText
  merge := merge
  compose := compose
  summarize _ _ raw := Chat.summary raw

end SummarySettings

end FileEndpoints
