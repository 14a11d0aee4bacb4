import FileEndpoints.Text.Blank
import FileEndpoints.Text.Utf8
import FileEndpoints.Time.Instant

namespace FileEndpoints

open Time (Instant)

/-- Whether a payload is empty or has only blank bytes. -/
def isBlankPayload (data : Bytes) : Bool :=
  data.all Text.isBlankByte

/-- The single slot for a request and its response. A request is pending from its submission until a
response is installed; a submission leaves the earlier response in place. -/
structure ResponseCache where
  payload : Option Bytes := none
  /-- The response as it came, if there is one and it has a raw form. -/
  raw : Option Bytes := none
  summary : Option String := none
  pending : Bool := false
  executedAt : Option Instant := none
  generation : Nat := 0
deriving DecidableEq, Repr

namespace ResponseCache

def submit (c : ResponseCache) (data : Bytes) : ResponseCache :=
  { c with payload := some data, pending := true, generation := c.generation + 1 }

def install (c : ResponseCache) (raw : Option Bytes) (summary : String) (executed : Instant) :
    ResponseCache :=
  { c with raw, summary := some summary, executedAt := some executed, pending := false }

def hasPayload (c : ResponseCache) : Bool :=
  c.payload.any fun data => !isBlankPayload data

end ResponseCache

end FileEndpoints
