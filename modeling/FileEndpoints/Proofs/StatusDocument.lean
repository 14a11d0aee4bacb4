import FileEndpoints.Proofs.DoubleNumerals
import FileEndpoints.Proofs.JsonRoundTrip
import FileEndpoints.Proofs.ShownSizes
import FileEndpoints.Proofs.Utf8RoundTrip

namespace FileEndpoints

open Time (Instant)

namespace Json

def Printable (s : List Char) : Prop :=
  ∀ c ∈ s, 0x20 ≤ c.toNat

theorem all_printable {s : List Char} :
    (s.all fun c => decide (0x20 ≤ c.toNat)) = true ↔ Printable s := by
  simp only [List.all_eq_true, decide_eq_true_eq, Printable]

instance (s : List Char) : Decidable (Printable s) :=
  decidable_of_iff _ all_printable

theorem printable_append {s t : List Char} (hs : Printable s) (ht : Printable t) :
    Printable (s ++ t) :=
  List.forall_mem_append.2 ⟨hs, ht⟩

theorem printable_cons {c : Char} {s : List Char} (hc : 0x20 ≤ c.toNat) (hs : Printable s) :
    Printable (c :: s) :=
  List.forall_mem_cons.2 ⟨hc, hs⟩

theorem simpleEscape?_printable {c d : Char} (h : Token.simpleEscape? c = some d) :
    0x20 ≤ c.toNat := by
  unfold Token.simpleEscape? at h
  split at h
  case h_9 => cases h
  all_goals decide

theorem hexDigit_printable (n : Nat) : 0x20 ≤ (hexDigit n).toNat := by
  have hall : ∀ d < 16, 0x20 ≤ (Nat.digitChar d).toNat := by decide
  exact hall (n % 16) (Nat.mod_lt _ (by decide))

theorem escapeChar_printable (c : Char) : Printable (escapeChar c) := by
  have hmarks : 0x20 ≤ '\\'.toNat ∧ 0x20 ≤ 'u'.toNat ∧ 0x20 ≤ '0'.toNat := by decide
  have hescaped := Token.escapeChar_escaped c
  generalize escapeChar c = s at hescaped ⊢
  cases hescaped with
  | simple hd he =>
    exact printable_cons hmarks.1 (printable_cons (simpleEscape?_printable he) nofun)
  | control hc =>
    apply printable_cons hmarks.1
    apply printable_cons hmarks.2.1
    apply printable_cons hmarks.2.2
    apply printable_cons hmarks.2.2
    apply printable_cons (hexDigit_printable _)
    exact printable_cons (hexDigit_printable _) nofun
  | plain hquote hbackslash hc => exact printable_cons (Nat.le_of_not_lt hc) nofun

theorem quoteChars_printable (s : List Char) : Printable (quoteChars s) := by
  have hquote : 0x20 ≤ '"'.toNat := by decide
  refine printable_append (printable_cons hquote ?_) (printable_cons hquote nofun)
  intro c hc
  obtain ⟨d, -, hd⟩ := List.mem_flatMap.1 hc
  exact escapeChar_printable d c hd

theorem numeralChar_printable {c : Char} (h : Token.isNumeralChar c = true) : 0x20 ≤ c.toNat := by
  simp only [Token.isNumeralChar, Char.isDigit, Bool.or_eq_true, Bool.and_eq_true,
    decide_eq_true_eq] at h
  rcases h with ((((⟨hlo, -⟩ | rfl) | rfl) | rfl) | rfl) | rfl
  · exact Nat.le_trans (by decide) (UInt32.le_iff_toNat_le.1 hlo)
  all_goals decide

theorem number_printable (n : Number) : Printable n.chars := by
  have hstart {c : Char} (hc : c = '-' ∨ ∃ d < 10, c = Nat.digitChar d) : 0x20 ≤ c.toNat := by
    have hall : ∀ d < 10, 0x20 ≤ (Nat.digitChar d).toNat := by decide
    rcases hc with rfl | ⟨d, hd, rfl⟩
    · decide
    · exact hall d hd
  cases n with
  | int i =>
    obtain ⟨c, s, hchars, hc, hs⟩ := Token.intChars_cons i
    rw [Number.chars, hchars]
    exact printable_cons (hstart hc) fun d hd => numeralChar_printable (hs d hd)
  | float x =>
    rw [Number.chars]
    split
    · obtain ⟨p, hp, hwrite⟩ := Decimal.write_legible x
      obtain ⟨c, s, hchars, hc, hs⟩ := Numeral.Parts.chars_cons hp.sound
      rw [hwrite, hchars]
      exact printable_cons (hstart hc) fun d hd => numeralChar_printable (hs d hd)
    · decide

theorem member_printable {c : Char} (hc : 0x20 ≤ c.toNat) (name : String) {s t : List Char}
    (hs : Printable s) (ht : Printable t) :
    Printable (c :: quoteChars name.toList ++ ':' :: s ++ t) := by
  have hname := printable_cons hc (quoteChars_printable name.toList)
  exact printable_append (printable_append hname (printable_cons (by decide) hs)) ht

mutual

theorem chars_printable : ∀ v : Json, Printable v.chars
  | null | bool true | bool false | arr [] | obj [] => by
    simp only [chars]
    decide
  | num n => number_printable n
  | str s => quoteChars_printable s.toList
  | arr (v :: vs) =>
    printable_append (printable_cons (by decide) (chars_printable v)) (itemChars_printable vs)
  | obj ((name, v) :: ms) =>
    member_printable (by decide) name (chars_printable v) (memberChars_printable ms)

theorem itemChars_printable : ∀ vs : List Json, Printable (itemChars vs)
  | [] => printable_cons (by decide) nofun
  | v :: vs =>
    printable_append (printable_cons (by decide) (chars_printable v)) (itemChars_printable vs)

theorem memberChars_printable : ∀ ms : List (String × Json), Printable (memberChars ms)
  | [] => printable_cons (by decide) nofun
  | (name, v) :: ms =>
    member_printable (by decide) name (chars_printable v) (memberChars_printable ms)

end

/-- What the reader finds for a double that has been written. -/
def readDouble? (x : Float) : Option Json :=
  if x.isFinite then (Numeral.read? (doubleLayout.write x)).map .num else some .null

theorem readDouble?_eq_some {x : Float} {v : Json} (h : readDouble? x = some v) :
    v = .null ∨ ∃ n, v = .num n := by
  rw [readDouble?] at h
  split at h
  · obtain ⟨n, -, rfl⟩ := Option.map_eq_some_iff.1 h
    exact .inr ⟨n, rfl⟩
  · exact .inl (Option.some.inj h).symm

/-- A double whose text has no exponent greater than those of the places that are written out. -/
def Moderate (x : Float) : Prop :=
  ∀ p ∈ Numeral.parts? (doubleLayout.write x), ∀ e ∈ p.exponent, e ≤ 15

instance (x : Float) : Decidable (Moderate x) :=
  inferInstanceAs
    (Decidable (∀ p ∈ Numeral.parts? (doubleLayout.write x), ∀ e ∈ p.exponent, e ≤ 15))

/-- Only a numeral with a great exponent may be refused. -/
theorem readDouble?_isSome {x : Float} (h : Moderate x) : (readDouble? x).isSome = true := by
  obtain ⟨p, hp, hwrite⟩ := Decimal.write_legible x
  have hparts : Numeral.parts? (doubleLayout.write x) = some p := by
    rw [hwrite]
    exact Numeral.parts?_chars hp.sound
  have hscales : p.ScalesDown := by
    rcases hp.read with hscales | ⟨e, hgreat, he⟩
    · exact hscales
    · exact absurd (h p hparts e he) (Int.not_le.2 hgreat)
  rw [readDouble?]
  split
  · rw [Option.isSome_map, Numeral.read?, hparts]
    exact Numeral.Parts.toNumber?_isSome hp.sound hscales
  · rfl

namespace Token

open Lexer

theorem run_double (x : Float) (out : List Token) {rest : List Char} (hrest : Stops rest) :
    idle.run out ((Number.float x).chars ++ rest) =
      (readDouble? x).bind fun v => idle.run (scalar v :: out) rest := by
  rw [Number.chars, readDouble?]
  split
  · obtain ⟨p, hp, hwrite⟩ := Decimal.write_legible x
    obtain ⟨c, s, hchars, hc, hs⟩ := Numeral.Parts.chars_cons hp.sound
    rw [hwrite, hchars, run_number hc hs hrest, Option.bind_map]
    rfl
  · exact run_word rfl hrest

theorem lexes_str (s : String) : Lexes (.str s) :=
  lexes_of_plain (n := 0) .str

theorem lexes_bool (b : Bool) : Lexes (.bool b) :=
  lexes_of_plain (n := 0) .bool

theorem run_lastMember (name : String) (x : Float) (out : List Token) :
    idle.run out (memberChars [(name, .num (.float x))]) =
      (readDouble? x).bind fun v =>
        idle.run (scalar v :: colon :: text name :: comma :: out) ['\x7d'] := by
  have hcomma : idle.step ',' = some ([comma], idle) := rfl
  have hcolon : idle.step ':' = some ([colon], idle) := rfl
  have hchars : memberChars [(name, .num (.float x))] =
      ',' :: (quoteChars name.toList ++ ':' :: ((Number.float x).chars ++ ['\x7d'])) := by
    simp only [memberChars, chars, List.cons_append, List.append_assoc]
  rw [hchars, run_cons hcomma, run_quoteChars, run_cons hcolon]
  exact run_double x _ (stops_mark rfl rfl [])

/-- An object whose last member is a double has the tokens of its members in their order. -/
theorem ofChars?_double {key : String} {value : Json} {ms : List (String × Json)}
    (hvalue : Lexes value) (hms : ∀ m ∈ ms, Lexes m.2) (name : String) (x : Float) :
    ofChars? (Json.obj ((key, value) :: ms ++ [(name, .num (.float x))])).chars =
      (readDouble? x).map fun v => openObject :: text key :: colon ::
        (value.tokens ++ (frontTokens ms ++ [comma, text name, colon, scalar v, closeObject])) := by
  have hopen : idle.step '\x7b' = some ([openObject], idle) := rfl
  have hmember := run_member key hvalue (ms ++ [(name, .num (.float x))]) [openObject] []
  have hfront := run_front hms [(name, .num (.float x))]
    (value.tokens.reverse ++ [colon, text key, openObject]) []
  simp only [List.append_nil] at hmember hfront
  simp only [ofChars?, List.cons_append, chars, List.append_assoc]
  rw [run_cons hopen]
  refine hmember.trans (hfront.trans ?_)
  rw [run_lastMember, Option.map_eq_bind]
  have hclose : idle.step '\x7d' = some ([closeObject], idle) := rfl
  congr 1
  funext v
  rw [run_cons hclose]
  simp only [Lexer.run, close, Option.map_some, List.reverse_append, List.reverse_cons,
    List.reverse_reverse, List.reverse_nil, List.append_assoc, List.nil_append, List.cons_append,
    Function.comp_apply]

end Token

end Json

namespace StatusSnapshot

/-- The members of the status document, in their order. -/
def members (s : StatusSnapshot) (duration : Json) : List (String × Json) :=
  [("skill", .str s.skill), ("state", .str s.state.name), ("pending", .bool s.pending),
    ("cache_hit", .bool s.cacheHit), ("last_execution", .str s.lastExecution),
    ("duration_ms", duration)]

def document (s : StatusSnapshot) (duration : Json) : Json :=
  .obj [("cache_hit", .bool s.cacheHit), ("duration_ms", duration),
    ("last_execution", .str s.lastExecution), ("pending", .bool s.pending),
    ("skill", .str s.skill), ("state", .str s.state.name)]

structure Legible (s : StatusSnapshot) : Prop where
  printable : Json.Printable s.render.toList
  /-- The duration is a numeral, and a number unless it is too great. -/
  duration : s.duration.isFinite = true → ∃ p,
    Json.Numeral.parts? (Json.Number.float s.duration).chars = some p ∧
      ((∀ e, p.exponent = some e → e ≤ 15) → ∃ n, Json.readDouble? s.duration = some (.num n))
  tokens : Json.Token.ofChars? s.render.toList =
    (Json.readDouble? s.duration).map fun v => (Json.obj (s.members v)).tokens
  parsed : Json.parse? s.render = (Json.readDouble? s.duration).map s.document
  accepted : Json.Moderate s.duration → ∃ v, Json.parse? s.render = some (s.document v)

theorem tokens_render (s : StatusSnapshot) : Json.Token.ofChars? s.render.toList =
    (Json.readDouble? s.duration).map fun v => (Json.obj (s.members v)).tokens := by
  have hfront : ∀ m ∈ [("state", Json.str s.state.name), ("pending", .bool s.pending),
      ("cache_hit", .bool s.cacheHit), ("last_execution", .str s.lastExecution)],
      Json.Token.Lexes m.2 := by
    simp only [List.forall_mem_cons, Json.Token.lexes_str, Json.Token.lexes_bool,
      List.not_mem_nil, IsEmpty.forall_iff, implies_true, and_self]
  rw [render, Json.render, String.toList_ofList]
  refine (Json.Token.ofChars?_double (Json.Token.lexes_str s.skill) hfront _ _).trans ?_
  cases hread : Json.readDouble? s.duration with
  | none => rfl
  | some v =>
    rcases Json.readDouble?_eq_some hread with rfl | ⟨n, rfl⟩
    · rfl
    · rfl

theorem parse?_render (s : StatusSnapshot) :
    Json.parse? s.render = (Json.readDouble? s.duration).map s.document := by
  rw [Json.parse?, Json.ofChars?, s.tokens_render]
  cases hread : Json.readDouble? s.duration with
  | none => rfl
  | some v =>
    rcases Json.readDouble?_eq_some hread with rfl | ⟨n, rfl⟩
    · rfl
    · rfl

theorem ofBytes?_render (s : StatusSnapshot) : Json.ofBytes? (Text.encode s.render) =
    (Json.readDouble? s.duration).map s.document := by
  rw [Json.ofBytes?, Text.decode?_eq_some.2 rfl, Option.bind_some, s.parse?_render]

theorem member_skill (s : StatusSnapshot) (duration : Json) :
    (s.document duration).get? "skill" = some (.str s.skill) := rfl

theorem member_state (s : StatusSnapshot) (duration : Json) :
    (s.document duration).get? "state" = some (.str s.state.name) := rfl

/-- A quote in the name is escaped. -/
example : (StatusSnapshot.mk "say \"hi\"" .completed false true "2024-03-09 12:00:01" 1.23).render =
    "\x7b\"skill\":\"say \\\"hi\\\"\",\"state\":\"completed\",\"pending\":false," ++
      "\"cache_hit\":true,\"last_execution\":\"2024-03-09 12:00:01\",\"duration_ms\":1.23\x7d" := by
  decide +kernel

end StatusSnapshot

namespace Skill

/-- The status file shows the name of the skill and the state that it has. -/
structure Titled (k : Skill) : Prop where
  skill : k.status.skill = k.skillName
  state : k.status.state = k.state

namespace Titled

variable {k k' : Skill}

theorem enter (k : Skill) (state : ExecutionState) (cacheHit : Bool) :
    (k.enter state cacheHit).Titled :=
  ⟨rfl, rfl⟩

theorem congr (h : k.Titled) (hstatus : k'.status = k.status) (hname : k'.skillName = k.skillName)
    (hstate : k'.state = k.state) : k'.Titled :=
  ⟨by rw [hstatus, hname, h.skill], by rw [hstatus, hstate, h.state]⟩

theorem note (h : k.Titled) (time : Instant) (level : LogLevel) (message : String) :
    (k.note time level message).Titled :=
  h.congr rfl rfl rfl

theorem create (time : Instant) : (Skill.create time).Titled :=
  ⟨rfl, rfl⟩

theorem configure (h : k.Titled) {s : Services} {now : Instant} (hclock : s.clock = .ok now)
    (document : Option String) : (k.configure s document).state.Titled := by
  simp only [Skill.configure]
  cases Patch.parse document with
  | error err => exact h
  | ok patch =>
    simp only [hclock, Outcome.timed]
    exact enter _ _ _

theorem shutdown (h : k.Titled) (s : Services) : (k.shutdown s).state.Titled := by
  have hstopped : Titled { k with active := false } := h.congr rfl rfl rfl
  exact Outcome.timed_preserves hstopped (fun now => hstopped.note now _ _) s.clock

theorem beginWrite (h : k.Titled) (s : Services) (path : String) (data : Bytes) :
    (k.beginWrite s path data).state.Titled := by
  simp only [Skill.beginWrite]
  split
  · exact h
  · have hset : Titled { k with metadata := data } := h.congr rfl rfl rfl
    exact Outcome.timed_preserves hset (fun now => hset.note now _ _) s.clock
  · have hset : Titled { k with instructions := data } := h.congr rfl rfl rfl
    exact Outcome.timed_preserves hset (fun now => hset.note now _ _) s.clock
  · simp only [queue]
    split
    · exact h
    · have hqueued := enter { k with cache := k.cache.submit data } .pending false
      exact Outcome.timed_preserves hqueued (fun now => hqueued.note now _ _) s.clock

theorem runOn (k : Skill) (s : Services) (now : Instant) (data : Bytes) :
    (k.runOn s now data).state.Titled := by
  simp only [Skill.runOn]
  cases (s.run (k.invocation now data)).outcome with
  | crashed => exact (enter k .running false).note now _ _
  | failed message => exact (enter (k.beginRun now) .failed false).note _ _ _
  | completed text => exact (enter _ .completed false).note _ _ _

theorem read (h : k.Titled) (s : Services) (path : String) (offset size : Int) :
    (k.read s path offset size).state.Titled := by
  have hresult : (k.currentResult s).state.Titled := by
    simp only [Skill.currentResult]
    split
    · exact h
    · apply Outcome.timed_preserves h
      intro now
      split
      · exact (enter k .completed true).note now _ _
      · exact runOn k s now _
  by_cases hpath : path = "/result"
  · subst hpath
    exact hresult
  · rw [(read_elsewhere hpath s k offset size).2]
    exact h

theorem move (h : k.Titled) {s : Services} (m : Move)
    (hclock : ∀ document, m = .use (.configure document) → ∃ now, s.clock = .ok now) :
    (k.move s m).Titled := by
  cases m with
  | begin path data => exact h.beginWrite s path data
  | finish number reply => exact h
  | use operation =>
    cases operation with
    | configure document =>
      obtain ⟨now, hnow⟩ := hclock document rfl
      exact h.configure hnow document
    | shutdown => exact h.shutdown s
    | stat path => exact h
    | list path => exact h
    | read path offset size => exact h.read s path offset size
    | write path data => exact h.beginWrite s path data

theorem document_skill (h : k.Titled) (duration : Json) :
    (k.status.document duration).get? "skill" = some (.str k.skillName) := by
  rw [k.status.member_skill, h.skill]

theorem document_state (h : k.Titled) (duration : Json) :
    (k.status.document duration).get? "state" = some (.str k.state.name) := by
  rw [k.status.member_state, h.state]

end Titled

/-- The bytes of the status file are read as the name and the state of the skill. -/
structure ShowsStatus (k : Skill) : Prop where
  shown : ∀ s, (k.read s "/status" 0 (-1)).answer = .ok (Text.encode k.status.render)
  decoded : Json.ofBytes? (Text.encode k.status.render) =
    (Json.readDouble? k.status.duration).map k.status.document
  skill : ∀ duration, (k.status.document duration).get? "skill" = some (.str k.skillName)
  state : ∀ duration, (k.status.document duration).get? "state" = some (.str k.state.name)
  /-- The reader accepts the bytes, unless the duration is too great. -/
  accepted : Json.Moderate k.status.duration →
    ∃ v, Json.ofBytes? (Text.encode k.status.render) = some v ∧
      v.get? "skill" = some (.str k.skillName) ∧ v.get? "state" = some (.str k.state.name)

theorem Titled.shows {k : Skill} (h : k.Titled) : k.ShowsStatus where
  shown s := by
    have hread : (k.read s "/status" 0 (-1)).answer =
        .ok (readWindow (Text.encode k.status.render) 0 (-1)) := rfl
    rwa [EditableFile.readWindow_whole _ (Int.le_refl 0) (by decide)] at hread
  decoded := k.status.ofBytes?_render
  skill := h.document_skill
  state := h.document_state
  accepted hmoderate := by
    obtain ⟨v, hv⟩ := Option.isSome_iff_exists.1 (Json.readDouble?_isSome hmoderate)
    refine ⟨k.status.document v, ?_, h.document_skill v, h.document_state v⟩
    rw [k.status.ofBytes?_render, hv, Option.map_some]

end Skill

end FileEndpoints
