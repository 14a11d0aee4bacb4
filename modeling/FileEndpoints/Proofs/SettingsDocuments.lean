import FileEndpoints.Settings.Patch

namespace FileEndpoints

/-- A document that is not blank and is the text of a value. -/
def Holds (document : Option String) (root : Json) : Prop :=
  ∃ text, document = some text ∧ text.toList.all Text.isBlank = false ∧
    Json.parse? text = some root

/-- A document that is neither blank nor the text of a value. -/
def Malformed (document : Option String) : Prop :=
  ∃ text, document = some text ∧ text.toList.all Text.isBlank = false ∧ Json.parse? text = none

theorem Holds.unique {document : Option String} {root root' : Json} (h : Holds document root)
    (h' : Holds document root') : root = root' := by
  obtain ⟨text, rfl, -, hroot⟩ := h
  obtain ⟨text', htext, -, hroot'⟩ := h'
  obtain rfl := Option.some.inj htext
  exact Option.some.inj (hroot.symm.trans hroot')

def IsText {α : Type} (f : String → α) (v : Json) (a : α) : Prop :=
  ∃ s, v = .str s ∧ a = f s

/-- A whole number of 64 signed bits, taken for a value of a setting. -/
def IsWhole {α : Type} (f : Int → α) (v : Json) (a : α) : Prop :=
  ∃ n, v = .num (.int n) ∧ Text.minInt64 ≤ n ∧ n ≤ Text.maxInt64 ∧ a = f n

def IsNumber (v : Json) (x : Float) : Prop :=
  v = .num (.float x) ∨ ∃ n, v = .num (.int n) ∧ x = Json.floatOfInt n

/-- The value that the members of an object give to a setting of the given keys. -/
inductive FirstReading {α : Type} (Reads : Json → α → Prop) (root : Json) : List String → α → Prop
  | here {key keys v a} (hv : root.get? key = some v) (ha : Reads v a) :
      FirstReading Reads root (key :: keys) a
  | later {key keys a} (hno : ∀ v b, root.get? key = some v → ¬ Reads v b)
      (h : FirstReading Reads root keys a) : FirstReading Reads root (key :: keys) a

inductive Parsed (document : Option String) : Except Error Patch → Prop
  | malformed (h : Malformed document) : Parsed document (.error .malformedSettings)
  | blank (hm : ¬ Malformed document) (h : ∀ root, ¬ Holds document root) :
      Parsed document (.ok {})
  | holds {root : Json} {p : Patch} (hm : ¬ Malformed document) (h : Holds document root)
      (hp : ∀ key, p.get? key = root.get? key) : Parsed document (.ok p)

namespace Patch

theorem get?_ofJson (root : Json) (key : String) : (ofJson root).get? key = root.get? key := by
  cases root <;> rfl

theorem parse_parsed (document : Option String) : Parsed document (parse document) := by
  cases document with
  | none =>
    apply Parsed.blank
    · rintro ⟨text, htext, -⟩
      cases htext
    · rintro root ⟨text, htext, -⟩
      cases htext
  | some text =>
    simp only [parse]
    cases hblank : text.toList.all Text.isBlank with
    | true =>
      apply Parsed.blank
      · rintro ⟨text', htext, hsolid, -⟩
        rw [← Option.some.inj htext, hblank] at hsolid
        cases hsolid
      · rintro root ⟨text', htext, hsolid, -⟩
        rw [← Option.some.inj htext, hblank] at hsolid
        cases hsolid
    | false =>
      cases hroot : Json.parse? text with
      | none => exact .malformed ⟨text, rfl, hblank, hroot⟩
      | some root =>
        apply Parsed.holds _ ⟨text, rfl, hblank, hroot⟩ (get?_ofJson root)
        rintro ⟨text', htext, -, hnone⟩
        rw [← Option.some.inj htext, hroot] at hnone
        cases hnone

/-- The first value of some form under one of several keys. -/
def first? {β : Type} (p : Patch) (read : Json → Option β) (keys : List String) : Option β :=
  keys.findSome? fun key => (p.get? key).bind read

theorem first?_singleton {β : Type} (p : Patch) (read : Json → Option β) (key : String) :
    p.first? read [key] = (p.get? key).bind read := by
  simp only [first?, List.findSome?]
  cases (p.get? key).bind read <;> rfl

variable {α β : Type} {Reads : Json → α → Prop} {read : Json → Option β} {f : β → α}

theorem firstReading_iff {root : Json} {p : Patch} (hp : ∀ key, p.get? key = root.get? key)
    (hread : ∀ v a, Reads v a ↔ (read v).map f = some a) (keys : List String) (a : α) :
    FirstReading Reads root keys a ↔ (p.first? read keys).map f = some a := by
  induction keys with
  | nil =>
    constructor
    · intro h
      cases h
    · intro h
      cases h
  | cons key keys ih =>
    have hcons : p.first? read (key :: keys) =
        ((root.get? key).bind read).or (p.first? read keys) := by
      simp only [first?, List.findSome?_cons, hp]
      cases (root.get? key).bind read <;> rfl
    rw [hcons]
    cases hv : (root.get? key).bind read with
    | none =>
      have hno : ∀ v b, root.get? key = some v → ¬ Reads v b := by
        intro v b hkey hreads
        obtain ⟨c, hc, -⟩ := Option.map_eq_some_iff.1 ((hread v b).1 hreads)
        rw [hkey] at hv
        cases hc.symm.trans hv
      rw [Option.none_or, ← ih]
      constructor
      · rintro (⟨hkey, ha⟩ | ⟨-, h⟩)
        · exact absurd ha (hno _ _ hkey)
        · exact h
      · exact .later hno
    | some b =>
      obtain ⟨v, hkey, hb⟩ := Option.bind_eq_some_iff.1 hv
      rw [Option.some_or]
      constructor
      · rintro (⟨hkey', ha⟩ | ⟨hno, -⟩)
        · obtain rfl := Option.some.inj (hkey.symm.trans hkey')
          rw [← (hread _ a).1 ha, hb]
        · refine absurd ?_ (hno v (f b) hkey)
          rw [hread, hb]
          rfl
      · intro ha
        refine .here hkey ?_
        rw [hread, hb]
        exact ha

/-- The values of a document that has been read are those of the value that it holds. -/
theorem first?_iff {document : Option String} {p : Patch} (hp : parse document = .ok p)
    (hread : ∀ v a, Reads v a ↔ (read v).map f = some a) (keys : List String) (a : α) :
    (p.first? read keys).map f = some a ↔
      ∃ root, Holds document root ∧ FirstReading Reads root keys a := by
  have hparsed := parse_parsed document
  rw [hp] at hparsed
  cases hparsed with
  | blank hm hnone =>
    have hfirst : first? {} read keys = none := by
      rw [first?, List.findSome?_eq_none_iff]
      intro key _
      rfl
    rw [hfirst]
    constructor
    · intro h
      cases h
    · rintro ⟨root, hroot, -⟩
      exact absurd hroot (hnone root)
  | holds hm hroot hget =>
    rw [← firstReading_iff hget hread]
    constructor
    · intro h
      exact ⟨_, hroot, h⟩
    · rintro ⟨root', hroot', h⟩
      rw [hroot.unique hroot']
      exact h

end Patch

theorem isText_iff {α : Type} (f : String → α) (v : Json) (a : α) :
    IsText f v a ↔ v.asString?.map f = some a := by
  constructor
  · rintro ⟨s, rfl, rfl⟩
    rfl
  · intro h
    obtain ⟨s, hs, rfl⟩ := Option.map_eq_some_iff.1 h
    exact ⟨s, Json.asString?_eq_some.1 hs, rfl⟩

theorem isWhole_iff {α : Type} (f : Int → α) (v : Json) (a : α) :
    IsWhole f v a ↔ v.asInt?.map f = some a := by
  constructor
  · rintro ⟨n, rfl, hlow, hhigh, rfl⟩
    have hn := Json.asInt?_eq_some.2 ⟨rfl, hlow, Int.lt_add_one_of_le hhigh⟩
    rw [hn, Option.map_some]
  · intro h
    obtain ⟨n, hn, rfl⟩ := Option.map_eq_some_iff.1 h
    obtain ⟨rfl, hlow, hhigh⟩ := Json.asInt?_eq_some.1 hn
    exact ⟨n, rfl, hlow, Int.le_of_lt_add_one hhigh, rfl⟩

theorem isNumber_iff (v : Json) (x : Float) : IsNumber v x ↔ v.asFloat?.map id = some x := by
  constructor
  · rintro (rfl | ⟨n, rfl, rfl⟩)
    · rfl
    · rfl
  · intro h
    cases v with
    | num n =>
      obtain rfl := Option.some.inj h
      cases n with
      | int n => exact .inr ⟨n, rfl, rfl⟩
      | float x => exact .inl rfl
    | _ => cases h

end FileEndpoints
