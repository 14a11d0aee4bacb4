import FileEndpoints.Json.Reader
import FileEndpoints.Proofs.JsonTokens

namespace FileEndpoints.Json

namespace Assembly

variable {stack : List Frame}

theorem run_cons {a b : Assembly} {t : Token} {ts : List Token} (h : a.step t = some b) :
    a.run (t :: ts) = b.run ts := by
  simp only [run, h, Option.bind_some]

/-- The tokens of a value are assembled into the value, as long as there is room on the stack. -/
def Assembles (n : Nat) (v : Json) : Prop :=
  ∀ (stack : List Frame) (ts : List Token), stack.length + n ≤ maxDepth →
    (value stack).run (v.tokens ++ ts) = (deliver v.canonical stack).run ts

theorem run_firstItem (v : Json) (stack : List Frame) (ts : List Token) :
    (firstItem stack).run (v.tokens ++ ts) = (value (.array [] :: stack)).run (v.tokens ++ ts) := by
  cases v with
  | null => rfl
  | bool b => rfl
  | num n => rfl
  | str s => rfl
  | arr items => cases items <;> rfl
  | obj members => cases members <;> rfl

theorem run_items {n : Nat} {vs : List Json} (h : ∀ v ∈ vs, Assembles n v) (done : List Json)
    (hroom : stack.length + (n + 1) ≤ maxDepth) (ts : List Token) :
    (afterItem done stack).run (itemTokens vs ++ ts) =
      (deliver (.arr (done.reverse ++ canonicalItems vs)) stack).run ts := by
  induction vs generalizing done with
  | nil =>
    rw [canonicalItems, List.append_nil]
    rfl
  | cons v vs ih =>
    have hcomma : (afterItem done stack).step .comma = some (value (.array done :: stack)) := rfl
    have hv := h v (List.mem_cons_self ..) (.array done :: stack) (itemTokens vs ++ ts)
      (by rw [List.length_cons]; omega)
    have htail := ih (fun v' hv' => h v' (List.mem_cons_of_mem _ hv')) (v.canonical :: done)
    simp only [itemTokens, List.cons_append, List.append_assoc, canonicalItems]
    rw [run_cons hcomma, hv]
    simp only [deliver, htail, List.reverse_cons, List.append_assoc, List.cons_append,
      List.nil_append]

theorem run_member {n : Nat} (name : String) {v : Json} (hv : Assembles n v)
    (done : List (String × Json)) (hroom : stack.length + (n + 1) ≤ maxDepth) (ts : List Token) :
    (nextName done stack).run (.text name :: .colon :: (v.tokens ++ ts)) =
      (afterMember ((name, v.canonical) :: done) stack).run ts := by
  have hname : (nextName done stack).step (.text name) = some (colon done name stack) := rfl
  have hcolon : (colon done name stack).step .colon = some (value (.member done name :: stack)) :=
    rfl
  rw [run_cons hname, run_cons hcolon]
  exact hv (.member done name :: stack) ts (by rw [List.length_cons]; omega)

theorem run_members {n : Nat} {ms : List (String × Json)} (h : ∀ m ∈ ms, Assembles n m.2)
    (done : List (String × Json)) (hroom : stack.length + (n + 1) ≤ maxDepth) (ts : List Token) :
    (afterMember done stack).run (memberTokens ms ++ ts) =
      (deliver (ofMembers (done.reverse ++ canonicalMembers ms)) stack).run ts := by
  induction ms generalizing done with
  | nil =>
    rw [canonicalMembers, List.append_nil]
    rfl
  | cons m ms ih =>
    obtain ⟨name, v⟩ := m
    have hcomma : (afterMember done stack).step .comma = some (nextName done stack) := rfl
    have hv := run_member name (h _ (List.mem_cons_self ..)) done hroom (memberTokens ms ++ ts)
    have htail := ih (fun m hm => h m (List.mem_cons_of_mem _ hm)) ((name, v.canonical) :: done)
    simp only [memberTokens, List.cons_append, List.append_assoc, canonicalMembers]
    rw [run_cons hcomma, hv, htail]
    simp only [List.reverse_cons, List.append_assoc, List.cons_append, List.nil_append]

theorem assembles_of_plain {n : Nat} {v : Json} (h : Plain n v) : Assembles n v := by
  -- What it says of the values inside is all that the runs over items and members need.
  induction h with
  | null => exact fun stack ts _ => rfl
  | bool => exact fun stack ts _ => rfl
  | int hlo hhi => exact fun stack ts _ => rfl
  | str => exact fun stack ts _ => rfl
  | arr _ ih =>
    intro stack ts hroom
    rename_i n items _
    have hopen : (value stack).step .openArray = some (firstItem stack) :=
      if_pos (by omega)
    cases items with
    | nil => exact run_cons hopen
    | cons v vs =>
      have hv := ih v (List.mem_cons_self ..) (.array [] :: stack) (itemTokens vs ++ ts)
        (by rw [List.length_cons]; omega)
      have htail := run_items (fun v' hv' => ih v' (List.mem_cons_of_mem _ hv')) [v.canonical]
        hroom ts
      simp only [tokens, List.cons_append, List.append_assoc, canonical, canonicalItems]
      rw [run_cons hopen, run_firstItem, hv]
      exact htail
  | obj _ _ ih =>
    intro stack ts hroom
    rename_i n members _ _
    have hopen : (value stack).step .openObject = some (firstName stack) :=
      if_pos (by omega)
    cases members with
    | nil => exact run_cons hopen
    | cons m ms =>
      obtain ⟨name, v⟩ := m
      have hv := run_member name (ih _ (List.mem_cons_self ..)) [] hroom (memberTokens ms ++ ts)
      have htail := run_members (fun m hm => ih m (List.mem_cons_of_mem _ hm))
        [(name, v.canonical)] hroom ts
      simp only [tokens, List.cons_append, List.append_assoc, canonical, canonicalMembers]
      rw [run_cons hopen]
      exact hv.trans htail

end Assembly

/-- A value that is written and read is the value itself, but for the order of members. -/
theorem parse?_render {v : Json} (h : Plain maxDepth v) : parse? v.render = some v.canonical := by
  have hassembled := Assembly.assembles_of_plain h [] [] (Nat.le_of_eq (Nat.zero_add _))
  rw [List.append_nil] at hassembled
  rw [parse?, render, String.toList_ofList, ofChars?, Token.ofChars?_chars h, Option.bind_some,
    ofTokens?, hassembled]
  rfl

end FileEndpoints.Json
