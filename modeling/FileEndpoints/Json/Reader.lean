import FileEndpoints.Json.Token
import FileEndpoints.Text.Utf8

namespace FileEndpoints.Json

/-- The greatest number of containers open at one place. -/
def maxDepth : Nat := 127

/-- A container that waits for the value it is to hold next. Its content so far is reversed. -/
inductive Frame where
  | array (done : List Json)
  | member (done : List (String × Json)) (name : String)

/-- What may come next, inside the open containers, which are on the stack. -/
inductive Assembly where
  | value (stack : List Frame)
  | firstItem (stack : List Frame)
  | afterItem (done : List Json) (stack : List Frame)
  | firstName (stack : List Frame)
  | nextName (done : List (String × Json)) (stack : List Frame)
  | colon (done : List (String × Json)) (name : String) (stack : List Frame)
  | afterMember (done : List (String × Json)) (stack : List Frame)
  | complete (v : Json)

namespace Assembly

def deliver (v : Json) : List Frame → Assembly
  | [] => complete v
  | .array done :: stack => afterItem (v :: done) stack
  | .member done name :: stack => afterMember ((name, v) :: done) stack

def beginValue (stack : List Frame) : Token → Option Assembly
  | .scalar v => some (deliver v stack)
  | .text s => some (deliver (.str s) stack)
  | .openArray => if stack.length < maxDepth then some (firstItem stack) else none
  | .openObject => if stack.length < maxDepth then some (firstName stack) else none
  | _ => none

def step : Assembly → Token → Option Assembly
  | value stack, t => beginValue stack t
  | firstItem stack, .closeArray => some (deliver (.arr []) stack)
  | firstItem stack, t => beginValue (.array [] :: stack) t
  | afterItem done stack, .comma => some (value (.array done :: stack))
  | afterItem done stack, .closeArray => some (deliver (.arr done.reverse) stack)
  | firstName stack, .text s => some (colon [] s stack)
  | firstName stack, .closeObject => some (deliver (.obj []) stack)
  | nextName done stack, .text s => some (colon done s stack)
  | colon done s stack, .colon => some (value (.member done s :: stack))
  | afterMember done stack, .comma => some (nextName done stack)
  | afterMember done stack, .closeObject => some (deliver (ofMembers done.reverse) stack)
  | _, _ => none

def run (a : Assembly) : List Token → Option Assembly
  | [] => some a
  | t :: ts => (a.step t).bind fun b => b.run ts

def result? : Assembly → Option Json
  | complete v => some v
  | _ => none

end Assembly

def ofTokens? (ts : List Token) : Option Json :=
  ((Assembly.value []).run ts).bind Assembly.result?

def ofChars? (s : List Char) : Option Json :=
  (Token.ofChars? s).bind ofTokens?

def parse? (s : String) : Option Json :=
  ofChars? s.toList

def ofBytes? (bs : Bytes) : Option Json :=
  (Text.decode? bs).bind parse?

end FileEndpoints.Json
