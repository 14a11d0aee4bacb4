namespace FileEndpoints

namespace Json

/-- A JSON number: whole numbers of 64 bits are kept exactly, all others are doubles. -/
inductive Number where
  | int (n : Int)
  | float (x : Float)

def floatOfInt (n : Int) : Float :=
  let x := (UInt64.ofNat n.natAbs).toFloat
  if n < 0 then -x else x

def Number.toFloat : Number → Float
  | int n => floatOfInt n
  | float x => x

end Json

/-- A JSON value. The members of an object repeat no name, and those that are read from a text are
in ascending order. -/
inductive Json where
  | null
  | bool (b : Bool)
  | num (n : Json.Number)
  | str (s : String)
  | arr (items : List Json)
  | obj (members : List (String × Json))

namespace Json

instance : Inhabited Json := ⟨null⟩

def ofInt (n : Int) : Json := num (.int n)

/-- Puts a member at its place among members in ascending order, in place of one of its name. -/
def insertMember (name : String) (value : Json) : List (String × Json) → List (String × Json)
  | [] => [(name, value)]
  | (n, v) :: rest =>
    if name < n then (name, value) :: (n, v) :: rest
    else if name = n then (name, value) :: rest
    else (n, v) :: insertMember name value rest

/-- Members in ascending order of their names, the last one of each name. -/
def sortMembers (members : List (String × Json)) : List (String × Json) :=
  members.foldl (fun sorted (name, value) => insertMember name value sorted) []

/-- The object with the given members, in ascending order, the last one of each name. -/
def ofMembers (members : List (String × Json)) : Json :=
  obj (sortMembers members)

mutual

/-- The same value with the members of every object in ascending order of their names. -/
def canonical : Json → Json
  | arr items => arr (canonicalItems items)
  | obj members => ofMembers (canonicalMembers members)
  | v => v

def canonicalItems : List Json → List Json
  | [] => []
  | v :: vs => canonical v :: canonicalItems vs

def canonicalMembers : List (String × Json) → List (String × Json)
  | [] => []
  | (name, v) :: ms => (name, canonical v) :: canonicalMembers ms

end

def get? (name : String) : Json → Option Json
  | obj members => members.lookup name
  | _ => none

def asString? : Json → Option String
  | str s => some s
  | _ => none

theorem asString?_eq_some {v : Json} {s : String} : v.asString? = some s ↔ v = .str s := by
  cases v <;> simp only [asString?, Option.some.injEq, reduceCtorEq, str.injEq]

/-- The number, if it is whole and has 64 signed bits. -/
def asInt? : Json → Option Int
  | num (.int n) => if -0x8000000000000000 ≤ n ∧ n < 0x8000000000000000 then some n else none
  | _ => none

theorem asInt?_eq_some {v : Json} {n : Int} : v.asInt? = some n ↔
    v = .num (.int n) ∧ -0x8000000000000000 ≤ n ∧ n < 0x8000000000000000 := by
  constructor
  · intro h
    cases v with
    | num m =>
      cases m with
      | int k =>
        simp only [asInt?, Option.ite_none_right_eq_some, Option.some.injEq] at h
        obtain ⟨hrange, rfl⟩ := h
        exact ⟨rfl, hrange⟩
      | float x => cases h
    | _ => cases h
  · rintro ⟨rfl, hrange⟩
    exact if_pos hrange

def asFloat? : Json → Option Float
  | num n => some n.toFloat
  | _ => none

def asArray? : Json → Option (List Json)
  | arr items => some items
  | _ => none

end Json

end FileEndpoints
