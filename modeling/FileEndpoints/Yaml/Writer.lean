import FileEndpoints.Yaml.Quoting

namespace FileEndpoints.Yaml

/-- Doubles in YAML: a positive exponent has no sign. -/
def doubleLayout : Decimal.Layout := { plusSign := false }

def numberChars : Json.Number → List Char
  | .int n => Json.intChars n
  | .float x =>
    if x.isFinite then doubleLayout.write x
    else if x.isNaN then ".nan".toList
    else if 0 < x then ".inf".toList
    else "-.inf".toList

/-- Whether a key can stand on one line with its value: it has no line breaks and at most 128
bytes. -/
def isShortKey (name : String) : Bool :=
  name.utf8ByteSize ≤ 128 && !name.toList.any ScalarStyle.isLineBreak

/-- A key and its colon. A key that is not short stands behind a mark of its own. -/
def keyChars (column : Nat) (name : String) : List Char :=
  let key := scalarLine (column + 2) name
  if isShortKey name then key.dropLast ++ [':']
  else '?' :: ' ' :: key ++ margin column ++ [':']

mutual

/-- What follows the mark of a value: the colon after a short key, or otherwise a mark behind which
a collection can begin on the same line. The collection that holds the value stands at a column. -/
def valueChars (column : Nat) (afterKey : Bool) : Json → List Char
  | .null => " null\n".toList
  | .bool true => " true\n".toList
  | .bool false => " false\n".toList
  | .num n => ' ' :: numberChars n ++ ['\n']
  | .str s => ' ' :: scalarLine (column + 2) s
  | .arr [] => " []\n".toList
  | .arr items =>
    if afterKey then '\n' :: itemChars column false items
    else ' ' :: itemChars (column + 2) true items
  | .obj [] => " \x7b\x7d\n".toList
  | .obj members =>
    (if afterKey then '\n' else ' ') :: memberChars (column + 2) (!afterKey) members

/-- Items behind hyphens at a column, and whether the line has reached it. -/
def itemChars (column : Nat) (reached : Bool) : List Json → List Char
  | [] => []
  | v :: vs =>
    (if reached then [] else margin column) ++ '-' :: valueChars column false v ++
      itemChars column false vs

/-- Members at a column, and whether the line has reached it. -/
def memberChars (column : Nat) (reached : Bool) : List (String × Json) → List Char
  | [] => []
  | (name, v) :: ms =>
    (if reached then [] else margin column) ++ keyChars column name ++
      valueChars column (isShortKey name) v ++ memberChars column false ms

end

def renderMembers (members : List (String × Json)) : String :=
  String.ofList (memberChars 0 true members)

end FileEndpoints.Yaml
