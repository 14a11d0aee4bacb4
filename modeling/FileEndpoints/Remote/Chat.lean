import FileEndpoints.Json.Reader
import FileEndpoints.Text.Utf8

namespace FileEndpoints.Chat

/-- Where the service is, unless settings say otherwise. -/
def defaultUrl : String := "https://api.openai.com/v1/chat/completions"

/-- The model asked, unless settings say otherwise. -/
def defaultModel : String := "gpt-4o-mini"

/-- The variable that holds the secret of the service. -/
def secretVariable : String := "OPENAI_API_KEY"

def defaultSystemPrompt : String :=
  "You are a helpful research assistant. Summarize the user text in a concise manner."

/-- The lead of the user message when no system message is configured. -/
def defaultLead : String :=
  "You are a helpful research assistant. Summarize the provided text in a clear,\n" ++
    "concise way. Highlight key insights. If format is specified, follow it."

inductive Role where
  | system
  | user
deriving DecidableEq, Repr

def Role.name : Role → String
  | system => "system"
  | user => "user"

structure Message where
  role : Role
  content : String
deriving DecidableEq, Repr

/-- A request for the next message of a conversation. -/
structure Conversation where
  model : String
  /-- How freely the model may choose its words, if it is to be told. -/
  temperature : Option Float
  messages : List Message

def Message.toJson (m : Message) : Json :=
  .obj [("role", .str m.role.name), ("content", .str m.content)]

def Conversation.toJson (c : Conversation) : Json :=
  let temperature := c.temperature.map fun t => ("temperature", Json.num (.float t))
  .obj (("model", .str c.model) :: temperature.toList ++
    [("messages", .arr (c.messages.map Message.toJson))])

/-- The user message that asks for a summary of a text, in a format if one is named. -/
def prompt (lead : Option String) (text : String) (format : Option String) : String :=
  let lead := lead.getD defaultLead
  match format.filter fun f => !f.isEmpty with
  | some f => lead ++ "\n\nFormat: " ++ f ++ "\n\nText:\n" ++ text
  | none => lead ++ "\n\nText:\n" ++ text

/-- Reads a field that may be absent or null. Fails on an ill-typed value. -/
def optional {α : Type} (read : Json → Option α) : Option Json → Option (Option α)
  | none => some none
  | some .null => some none
  | some v => (read v).map some

/-- A record of one optional field, given as an object or as an array of its fields in order. As an
array it must give the field, and nothing more. -/
def recordOf {α : Type} (field : String) (read : Json → Option α) : Json → Option (Option α)
  | .obj members => optional read (members.lookup field)
  | .arr [v] => optional read (some v)
  | _ => none

/-- The text of a message, if it has one. Fails on an ill-typed message. -/
def message? : Json → Option (Option String) :=
  recordOf "content" Json.asString?

/-- The message of a choice, if it has one. Fails on an ill-typed choice. -/
def choice? : Json → Option (Option (Option String)) :=
  recordOf "message" message?

/-- The choices of a reply, none if it does not mention them. Fails if one is ill-typed. -/
def choices? : Json → Option (List (Option (Option String)))
  | .obj members =>
    match members.lookup "choices" with
    | none => some []
    | some v => v.asArray?.bind fun items => items.mapM choice?
  | .arr [] => some []
  | .arr [v] => v.asArray?.bind fun items => items.mapM choice?
  | _ => none

def content? (reply : Json) : Option String :=
  (choices? reply).bind fun choices => choices.head?.bind fun choice => choice.bind id

def summary (raw : Bytes) : String :=
  match Json.ofBytes? raw with
  | none => "Failed to parse LLM response\n"
  | some reply => (content? reply).getD "(no content field returned)"

end FileEndpoints.Chat
