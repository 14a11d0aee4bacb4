import FileEndpoints.Json.Reader
import FileEndpoints.Text.Utf8

namespace FileEndpoints.WebSearch

/-- Where the service is, unless settings say otherwise. -/
def defaultUrl : String := "https://api.perplexity.ai/search"

/-- The variable that holds the secret of the service. -/
def secretVariable : String := "PERPLEXITY_API_KEY"

def body (query : String) (maxResults : Int) : Json :=
  .obj [("query", .str query), ("max_results", .ofInt maxResults)]

def header : String := "Perplexity Search Results\n------------------------------\n"

/-- The line of a member, if the item has it and it is a string. -/
def memberLine (item : Json) (label name : String) : String :=
  match (item.get? name).bind Json.asString? with
  | some s => "  " ++ label ++ ": " ++ s ++ "\n"
  | none => ""

def block (number : Nat) (item : Json) : String :=
  "Result " ++ toString number ++ "\n" ++ memberLine item "Title" "title" ++
    memberLine item "URL" "url" ++ memberLine item "Snippet" "snippet" ++ "\n"

/-- The blocks of items, numbered from a number on. The numbers are not bounded; a counter of 32
signed bits gives the same ones for fewer than `2 ^ 31` items. -/
def blocks (number : Nat) : List Json → String
  | [] => ""
  | item :: items => block number item ++ blocks (number + 1) items

/-- The items that a limit lets through: a limit that is not positive lets all through. -/
def limited (limit : Int) (items : List Json) : List Json :=
  if 0 < limit then items.take limit.toNat else items

def itemsText (limit : Int) (items : List Json) : String :=
  match limited limit items with
  | [] => header ++ "No results returned\n"
  | shown => header ++ blocks 1 shown

/-- The readable text of a reply with at most `limit` results. -/
def format (raw : Bytes) (limit : Int) : String :=
  match Json.ofBytes? raw with
  | none => "Failed to parse JSON response\n"
  | some reply =>
    match (reply.get? "results").bind Json.asArray? with
    | none => "No 'results' array in response\n"
    | some items => itemsText limit items

end FileEndpoints.WebSearch
