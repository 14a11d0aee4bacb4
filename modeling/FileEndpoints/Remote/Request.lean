import FileEndpoints.Error
import FileEndpoints.Json.Basic

namespace FileEndpoints

structure Request where
  url : String
  bearer : String
  body : Json
  /-- How long to wait for the reply, in milliseconds. -/
  timeout : Nat

/-- What came of a remote call: the body of the reply, or why there is none. -/
abbrev Reply := Except Error String

/-- The reply where no network can be reached. A call without an address is not even attempted. -/
def Request.offline (r : Request) : Reply :=
  .error (.transport (if r.url.isEmpty then "builder error"
    else "error sending request for url (" ++ r.url ++ ")"))

end FileEndpoints
