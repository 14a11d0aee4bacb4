import FileEndpoints.Proofs.CrashFreedom
import FileEndpoints.Proofs.InertLines
import FileEndpoints.Proofs.InputLines
import FileEndpoints.Skill.Transcript

namespace FileEndpoints.Console

open Text (encode OneLine)

def Quits (line : Bytes) : Prop :=
  ∃ s, Text.decode? line = some s ∧ Command.parse s = .ok (some .quit)

theorem quits_encode {line : String} :
    Quits (encode line) ↔ Command.parse line = .ok (some .quit) := by
  have hdecode : Text.decode? (encode line) = some line := Text.decode?_eq_some.2 rfl
  simp only [Quits, hdecode, Option.some.injEq, exists_eq_left']

/-- A line at which a session ends: it is not text, or asks for the end. -/
def Ends (line : Bytes) : Prop :=
  Text.decode? line = none ∨ Quits line

/-- What comes of the lines of a session up to its end. -/
def outcomes (t : MountTable) : List Turn → List LineOutcome
  | [] => []
  | turn :: turns =>
    match turn.outcome? t with
    | none => []
    | some o => o :: outcomes o.table turns

def segments (t : MountTable) (turns : List Turn) : List String :=
  (outcomes t turns).map (fun o => prompt ++ printed o.answer) ++ [prompt]

/-- No command of a session crashes. A crash would be an end of another kind. -/
def Calm (t : MountTable) (turns : List Turn) : Prop :=
  ∀ o ∈ outcomes t turns, o.answer ≠ .error (.endpoint .crashed)

/-- Turns after which a session goes on, what comes of them, and the table they lead to. -/
inductive Goes : MountTable → List Turn → List LineOutcome → MountTable → Prop
  | nil {t} : Goes t [] [] t
  | cons {t turn o turns os u} (h : turn.outcome? t = some o) (hrest : Goes o.table turns os u) :
      Goes t (turn :: turns) (o :: os) u

section

variable {t : MountTable} {turn : Turn} {o : LineOutcome}

theorem run_quit (w : Surroundings) (t : MountTable) (c : Command) :
    (run w t c).answer = .ok (some .quit) ↔ c = .quit := by
  have hshown (answer : Except Error String) : (shown t answer).answer ≠ .ok (some .quit) := by
    cases answer <;> nofun
  have hacted {α : Type} (o : Outcome MountTable α) (text : α → String) :
      (acted o text).answer ≠ .ok (some .quit) := by
    obtain ⟨answer, _, _⟩ := o
    cases answer <;> nofun
  cases c with
  | quit => exact iff_of_true rfl rfl
  | cat path offset size => exact iff_of_false (hacted _ _) nofun
  | write path text => exact iff_of_false (hacted _ _) nofun
  | _ => exact iff_of_false (hshown _) nofun

theorem runLine_quit (w : Surroundings) (t : MountTable) (line : String) :
    (runLine w t line).answer = .ok (some .quit) ↔ Command.parse line = .ok (some .quit) := by
  rw [runLine]
  split
  · rename_i h
    simp only [h, reduceCtorEq]
  · rename_i h
    simp only [h, Except.ok.injEq, reduceCtorEq]
  · rename_i c h
    rw [run_quit, h, Except.ok.injEq, Option.some.injEq]

theorem outcome?_eq_some : turn.outcome? t = some o ↔
    ∃ line, Text.decode? turn.line = some line ∧ Command.parse line ≠ .ok (some .quit) ∧
      runLine turn.around t line = o := by
  rw [Turn.outcome?, Option.bind_eq_some_iff]
  apply exists_congr
  intro line
  rw [ne_eq, ← runLine_quit turn.around t line]
  apply and_congr_right
  intro _
  dsimp only
  split
  · rename_i hquit
    exact iff_of_false nofun fun h => h.1 hquit
  · rename_i hgo
    rw [Option.some.injEq]
    exact (and_iff_right hgo).symm

theorem outcome?_eq_none : turn.outcome? t = none ↔ Ends turn.line := by
  rw [Option.eq_none_iff_forall_ne_some]
  simp only [ne_eq, outcome?_eq_some]
  constructor
  · intro h
    cases hline : Text.decode? turn.line with
    | none => exact .inl hline
    | some line =>
      apply Or.inr
      refine ⟨line, hline, ?_⟩
      by_contra hgo
      exact h _ ⟨line, hline, hgo, rfl⟩
  · rintro (hnone | ⟨s, hs, hquit⟩) o ⟨line, hline, hgo, -⟩
    · cases hnone.symm.trans hline
    · obtain rfl := Option.some.inj (hs.symm.trans hline)
      exact hgo hquit

theorem play_end (h : turn.outcome? t = none) (turns : List Turn) :
    play t (turn :: turns) = { output := prompt, table := t } := by
  simp only [play, h]

theorem play_cons (h : turn.outcome? t = some o) (turns : List Turn) :
    play t (turn :: turns) =
      { output := prompt ++ printed o.answer ++ (play o.table turns).output
        table := (play o.table turns).table
        effects := o.effects ++ (play o.table turns).effects } := by
  rw [play, h]

theorem outcomes_cons (h : turn.outcome? t = some o) (turns : List Turn) :
    outcomes t (turn :: turns) = o :: outcomes o.table turns := by
  rw [outcomes, h]

theorem play_output (t : MountTable) (turns : List Turn) :
    (play t turns).output = String.join (segments t turns) := by
  induction turns generalizing t with
  | nil => rfl
  | cons turn turns ih =>
    cases h : turn.outcome? t with
    | none =>
      rw [segments, play, outcomes, h]
      rfl
    | some o =>
      rw [segments, play_cons h, outcomes_cons h, List.map_cons, List.cons_append,
        String.join_cons, ih, segments]

/-- What comes after a line that ends the session does not matter, nor does the line. -/
theorem play_ended {q : Turn} (h : Ends q.line) (t : MountTable) (before after : List Turn) :
    play t (before ++ q :: after) = play t before := by
  induction before generalizing t with
  | nil =>
    rw [List.nil_append, play_end (outcome?_eq_none.2 h), play]
  | cons turn before ih =>
    rw [List.cons_append]
    cases hturn : turn.outcome? t with
    | none => rw [play_end hturn, play_end hturn]
    | some o => rw [play_cons hturn, play_cons hturn, ih]

theorem exists_goes {turns : List Turn} (h : ∀ turn ∈ turns, ¬ Ends turn.line) (t : MountTable) :
    ∃ os u, Goes t turns os u := by
  induction turns generalizing t with
  | nil => exact ⟨[], t, .nil⟩
  | cons turn turns ih =>
    obtain ⟨hturn, hturns⟩ := List.forall_mem_cons.1 h
    obtain ⟨o, ho⟩ := Option.ne_none_iff_exists'.1 (mt outcome?_eq_none.1 hturn)
    obtain ⟨os, u, hgoes⟩ := ih hturns o.table
    exact ⟨o :: os, u, .cons ho hgoes⟩

namespace Goes

variable {u : MountTable} {turns : List Turn} {os : List LineOutcome}

theorem length (h : Goes t turns os u) : os.length = turns.length := by
  induction h with
  | nil => rfl
  | cons _ _ ih => rw [List.length_cons, List.length_cons, ih]

theorem outcomes (h : Goes t turns os u) (rest : List Turn) :
    outcomes t (turns ++ rest) = os ++ Console.outcomes u rest := by
  induction h with
  | nil => rfl
  | cons h _ ih => rw [List.cons_append, outcomes_cons h, ih, List.cons_append]

theorem segments (h : Goes t turns os u) (rest : List Turn) :
    segments t (turns ++ rest) =
      os.map (fun o => prompt ++ printed o.answer) ++ Console.segments u rest := by
  rw [Console.segments, h.outcomes, List.map_append, List.append_assoc, Console.segments]

theorem table (h : Goes t turns os u) (rest : List Turn) :
    (play t (turns ++ rest)).table = (play u rest).table := by
  induction h with
  | nil => rfl
  | cons h _ ih => rw [List.cons_append, play_cons h, ih]

theorem effects (h : Goes t turns os u) (rest : List Turn) :
    (play t (turns ++ rest)).effects = os.flatMap (·.effects) ++ (play u rest).effects := by
  induction h with
  | nil => rfl
  | cons h _ ih => rw [List.cons_append, play_cons h, ih, List.flatMap_cons, List.append_assoc]

end Goes

end

/-- A turn makes no difference to a session but for one segment of what is printed. -/
structure Unnoticed (t : MountTable) (first rest : List Turn) (x : Turn) (shown : String) :
    Prop where
  line : shown = "" ∨ ∃ message, OneLine message ∧ shown = "error: " ++ message ++ "\n"
  printed : ∃ before after, before.length = first.length ∧
    segments t (first ++ rest) = before ++ after ∧
    segments t (first ++ x :: rest) = before ++ (prompt ++ shown) :: after
  table : ∀ atEnd,
    (session t (first ++ x :: rest) atEnd).table = (session t (first ++ rest) atEnd).table
  effects : ∀ atEnd,
    (session t (first ++ x :: rest) atEnd).effects = (session t (first ++ rest) atEnd).effects

theorem Inert.outcome {line shown : String} (h : Inert line shown) {x : Turn}
    (hx : x.line = encode line) (t : MountTable) :
    ∃ o, x.outcome? t = some o ∧ o.table = t ∧ o.effects = [] ∧ printed o.answer = shown := by
  have hdecode := Text.decode?_eq_some.2 hx
  cases h with
  | nothing h =>
    have hgoing : Command.parse line ≠ .ok (some .quit) := by
      simp only [h, ne_eq, Except.ok.injEq, reduceCtorEq, not_false_eq_true]
    have hrun : runLine x.around t line = { answer := .ok none, table := t } := by
      rw [runLine, h]
    exact ⟨_, outcome?_eq_some.2 ⟨line, hdecode, hgoing, hrun⟩, rfl, rfl, rfl⟩
  | wrong h =>
    rename_i e
    have hgoing : Command.parse line ≠ .ok (some .quit) := by
      simp only [h, ne_eq, reduceCtorEq, not_false_eq_true]
    have hrun : runLine x.around t line = { answer := .error e, table := t } := by
      rw [runLine, h]
    exact ⟨_, outcome?_eq_some.2 ⟨line, hdecode, hgoing, hrun⟩, rfl, rfl, rfl⟩

theorem Inert.unnoticed {line shown : String} (h : Inert line shown) {x : Turn}
    (hx : x.line = encode line) {first : List Turn} (hfirst : ∀ turn ∈ first, ¬ Ends turn.line)
    (t : MountTable) (rest : List Turn) : Unnoticed t first rest x shown := by
  -- The first turns lead to the same table in both sessions, and the new one stays there.
  obtain ⟨os, u, hgoes⟩ := exists_goes hfirst t
  obtain ⟨o, ho, htable, heffects, hshown⟩ := h.outcome hx u
  apply Unnoticed.mk
  case line =>
    cases h with
    | nothing => exact .inl rfl
    | wrong h => exact .inr ⟨_, (parse_complaint h).oneLine, rfl⟩
  case printed =>
    refine ⟨os.map fun o => prompt ++ printed o.answer, segments u rest, ?_,
      hgoes.segments rest, ?_⟩
    · rw [List.length_map, hgoes.length]
    · rw [hgoes.segments, segments, outcomes_cons ho, htable, List.map_cons, hshown,
        List.cons_append, segments]
  case table =>
    intro atEnd
    simp only [session, hgoes.table, play_cons ho, htable]
  case effects =>
    intro atEnd
    simp only [session, hgoes.effects, play_cons ho, htable, heffects, List.nil_append]

/-- What a command does with a table: nothing, or one operation on the endpoint of a mount. -/
inductive Touches (w : Surroundings) (t : MountTable) : LineOutcome → Prop
  | spares {o : LineOutcome} (h : o.table = t) : Touches w t o
  | acts {α : Type} {m : Mount} {text : α → String}
      {operate : Services → Locked BuiltIn → Outcome (Locked BuiltIn) α} (hm : m ∈ t.mounts)
      (h : Honest operate) : Touches w t (acted (t.act w m operate) text)

section

variable {t : MountTable}

theorem run_touches (h : t.Own) (w : Surroundings) (c : Command) : Touches w t (run w t c) := by
  cases c with
  | cat path offset size =>
    simp only [run, MountTable.read]
    cases hr : t.resolve path with
    | error err => exact .spares rfl
    | ok route =>
      have hm := ((h.sound.resolve_iff route.1 route.2).1 hr).1
      exact .acts hm (.act fun s e => Endpoint.read s e route.2 offset size)
  | write path text =>
    simp only [run, MountTable.write]
    cases hr : t.resolve path with
    | error err => exact .spares rfl
    | ok route =>
      have hm := ((h.sound.resolve_iff route.1 route.2).1 hr).1
      exact .acts hm (.write route.2 (encode text))
  | _ => exact .spares rfl

theorem runLine_touches (h : t.Own) (w : Surroundings) (line : String) :
    Touches w t (runLine w t line) := by
  rw [runLine]
  split
  · exact .spares rfl
  · exact .spares rfl
  · exact run_touches h w _

theorem outcome?_touches (h : t.Own) {turn : Turn} {o : LineOutcome}
    (ho : turn.outcome? t = some o) : Touches turn.around t o := by
  obtain ⟨line, -, -, rfl⟩ := outcome?_eq_some.1 ho
  exact runLine_touches h turn.around line

namespace Touches

variable {w : Surroundings} {o : LineOutcome}

theorem own (h : Touches w t o) (ht : t.Own) : o.table.Own ∧ o.table.mounts = t.mounts := by
  cases h with
  | spares h => exact ⟨h ▸ ht, h ▸ rfl⟩
  | acts => exact ⟨ht.act w _ _, (t.act_apart w _ _).mounts⟩

theorem healthy (h : Touches w t o) (ht : t.Healthy)
    (hcalm : o.answer ≠ .error (.endpoint .crashed)) : o.table.Healthy := by
  cases h with
  | spares h => exact h ▸ ht
  | acts hm h =>
    apply ht.act (ht _ hm) h
    intro hcrash
    apply hcalm
    simp only [acted, hcrash]
    rfl

end Touches

theorem play_own (h : t.Own) (turns : List Turn) :
    (play t turns).table.Own ∧ (play t turns).table.mounts = t.mounts := by
  induction turns generalizing t with
  | nil => exact ⟨h, rfl⟩
  | cons turn turns ih =>
    cases ho : turn.outcome? t with
    | none =>
      rw [play_end ho]
      exact ⟨h, rfl⟩
    | some o =>
      obtain ⟨hown, hmounts⟩ := (outcome?_touches h ho).own h
      obtain ⟨hlast, hsame⟩ := ih hown
      rw [play_cons ho]
      exact ⟨hlast, hsame.trans hmounts⟩

theorem play_healthy (h : t.Own) (hhealthy : t.Healthy) {turns : List Turn}
    (hcalm : Calm t turns) : (play t turns).table.Healthy := by
  induction turns generalizing t with
  | nil => exact hhealthy
  | cons turn turns ih =>
    cases ho : turn.outcome? t with
    | none =>
      rw [play_end ho]
      exact hhealthy
    | some o =>
      rw [Calm, outcomes_cons ho, List.forall_mem_cons] at hcalm
      have htouches := outcome?_touches h ho
      rw [play_cons ho]
      exact ih (htouches.own h).1 (htouches.healthy hhealthy hcalm.1) hcalm.2

theorem answer_calm {α : Type} {f : α → Option Response} {answer : Except Error α}
    (h : answer ≠ .error .crashed) :
    (answer.map f).mapError LineError.endpoint ≠ .error (.endpoint .crashed) := by
  cases answer with
  | ok a => nofun
  | error err =>
    intro hcrash
    exact h (congrArg Except.error (LineError.endpoint.inj (Except.error.inj hcrash)))

/-- Commands crash only where the endpoints do. -/
theorem run_calm (h : t.Own) {w : Surroundings} (hs : w.machine.Orderly) (c : Command) :
    (run w t c).answer ≠ .error (.endpoint .crashed) := by
  have hshown {answer : Except Error String} (ha : answer ≠ .error .crashed) :
      (shown t answer).answer ≠ .error (.endpoint .crashed) := answer_calm ha
  have hacted {α : Type} {o : Outcome MountTable α} {text : α → String}
      (ho : o.answer ≠ .error .crashed) :
      (acted o text).answer ≠ .error (.endpoint .crashed) := answer_calm ho
  cases c with
  | list path => exact hshown (MountTable.map_calm (h.firmAt hs path).list)
  | stat path =>
    have hstat := (h.firmAt hs path).stat
    apply hshown
    rw [statText]
    cases hinfo : t.stat w path with
    | error err =>
      intro hcrash
      exact hstat (hinfo.trans (congrArg Except.error (Except.error.inj hcrash)))
    | ok info => cases info <;> rintro ⟨⟩
  | readme path =>
    apply hshown
    rw [readmeText]
    split
    · rw [MountTable.view]
      split
      · rintro ⟨⟩
      · exact Locked.view_calm (by rintro ⟨⟩)
    · rintro ⟨⟩
  | cat path offset size => exact hacted ((h.firmAt hs path).read offset size)
  | write path text => exact hacted ((h.firmAt hs path).write (encode text))
  | mounts => rintro ⟨⟩
  | help => rintro ⟨⟩
  | quit => rintro ⟨⟩

theorem runLine_calm (h : t.Own) {w : Surroundings} (hs : w.machine.Orderly) (line : String) :
    (runLine w t line).answer ≠ .error (.endpoint .crashed) := by
  rw [runLine]
  split
  · rename_i e herror
    have hcomplaint := parse_complaint herror
    intro hcrash
    cases Except.error.inj hcrash
    cases hcomplaint
  · rintro ⟨⟩
  · exact run_calm h hs _

theorem calm_of_orderly (h : t.Own) {turns : List Turn}
    (hs : ∀ turn ∈ turns, turn.around.machine.Orderly) : Calm t turns := by
  induction turns generalizing t with
  | nil => nofun
  | cons turn turns ih =>
    obtain ⟨hturn, hturns⟩ := List.forall_mem_cons.1 hs
    rw [Calm]
    cases ho : turn.outcome? t with
    | none => simp only [outcomes, ho, List.not_mem_nil, false_implies, implies_true]
    | some o =>
      rw [outcomes_cons ho, List.forall_mem_cons]
      obtain ⟨line, -, -, hrun⟩ := outcome?_eq_some.1 ho
      exact ⟨hrun ▸ runLine_calm h hturn line, ih ((outcome?_touches h ho).own h).1 hturns⟩

end

structure SessionLaws (t : MountTable) : Prop where
  output : ∀ turns atEnd, (session t turns atEnd).output = String.join (segments t turns)
  /-- A line that holds no command may stand anywhere between the lines before the end. -/
  inserted : ∀ front back line shown turns x, WholeLines front →
    (∀ l ∈ lines (encode front), ¬ Quits l) → OneLine line → Inert (line ++ "\n") shown →
    Reads turns (front ++ back) → x.line = encode (line ++ "\n") →
      ∃ first rest, turns = first ++ rest ∧ Reads first front ∧
        Reads (first ++ x :: rest) (front ++ (line ++ "\n") ++ back) ∧
        Unnoticed t first rest x shown
  /-- Whatever the line is that ends a session, the end of the input would have done as well. -/
  ended : ∀ before q after atEnd, Ends q.line →
    session t (before ++ q :: after) atEnd = session t before atEnd
  /-- All endpoints are shut down in the state they were left in, and no mount stays. -/
  shutDown : ∀ turns atEnd now, atEnd.machine.clock = .ok now →
    (session t turns atEnd).table.mounts = [] ∧ ∀ m ∈ t.mounts,
      MountTable.ShutDown atEnd m (play t turns).table (session t turns atEnd).table
  /-- Only a crash could have an endpoint refuse its shutdown. -/
  unpoisoned : ∀ turns, Calm t turns → ∀ m ∈ t.mounts, ∀ slot,
    (play t turns).table.slot? m = some slot → slot.endpoint.poisoned = false
  calm : ∀ turns, (∀ turn ∈ turns, turn.around.machine.Orderly) → Calm t turns

theorem Reads.going {turns : List Turn} {s : String} (h : Reads turns s)
    (hgoing : ∀ l ∈ lines (encode s), ¬ Quits l) : ∀ turn ∈ turns, ¬ Ends turn.line := by
  intro turn hturn hends
  have hline : turn.line ∈ lines (encode s) := h ▸ List.mem_map_of_mem hturn
  rcases hends with hnone | hquits
  · obtain ⟨u, hu⟩ := text_of_mem_lines hline
    cases hnone.symm.trans (Text.decode?_eq_some.2 hu)
  · exact hgoing turn.line hline hquits

/-- A line without a command goes unnoticed, one that ends the session makes all later ones go
unnoticed, and in the end every endpoint is shut down. -/
theorem inert_lines_unnoticed {w : Surroundings} {plan : MountPlan} {t : MountTable}
    (ht : MountTable.ofPlan w plan = .ok t) : SessionLaws t := by
  have hown := MountTable.Own.planned ht
  have hhealthy : t.Healthy := MountTable.Healthy.empty.planned .empty ht
  apply SessionLaws.mk
  case output => exact fun turns _ => play_output t turns
  case inserted =>
    intro front back line shown turns x hwhole hgoing hline hinert hreads hx
    obtain ⟨first, rest, rfl, hfirst, hrest⟩ := hreads.split hwhole
    have hone : Reads [x] (line ++ "\n") := by
      rw [Reads, List.map_singleton, hx, lines_of_oneLine hline]
    have hwhole' : WholeLines (line ++ "\n") := .inr ⟨line, rfl⟩
    refine ⟨first, rest, rfl, hfirst, ?_, hinert.unnoticed hx (hfirst.going hgoing) t rest⟩
    rw [String.append_assoc]
    exact hfirst.append hwhole (hone.append hwhole' hrest)
  case ended =>
    intro before q after atEnd hq
    rw [session, session, play_ended hq]
  case shutDown =>
    intro turns atEnd now hc
    obtain ⟨hlast, hmounts⟩ := play_own hown turns
    obtain ⟨-, hnone, hshut⟩ := hlast.shutdownAll hc
    exact ⟨hnone, hmounts ▸ hshut⟩
  case unpoisoned =>
    intro turns hcalm m hm slot hslot
    rw [← (play_own hown turns).2] at hm
    rw [← Bool.not_eq_true]
    intro hpoisoned
    exact play_healthy hown hhealthy hcalm m hm slot ⟨hslot, hpoisoned⟩
  case calm => exact fun turns hs => calm_of_orderly hown hs

/-- A name that is no command, between a run that is queued and the reading of its result. -/
theorem bogus_line_unnoticed :
    let s : Services := { now := .ok ⟨0⟩, clock := .ok ⟨0⟩, env := fun _ => none
                          post := Request.offline, run := Invocation.placeholderRun }
    let w : Surroundings := { given := s, machine := s }
    let turn (line : String) : Turn := { around := w, line := encode line }
    let turns := ["write s/execute go\n", "cat s/result 0 5\n", "quit\n", "mounts"].map turn
    ∃ t, MountTable.ofPlan w ⟨[{ plugin := "skills", path := "/s" }]⟩ = .ok t ∧
      segments t turns = ["> wrote 2 bytes to s/execute\n", "> Skill\n", "> "] ∧
      (∃ first rest, turns = first ++ rest ∧ first.length = 1 ∧
        Unnoticed t first rest (turn "bogus\n") "error: unknown command: bogus (try help)\n") ∧
      (session t turns w).table.mounts = [] ∧ Calm t turns := by
  intro s w turn turns
  have hplanned : ((MountTable.ofPlan w ⟨[{ plugin := "skills", path := "/s" }]⟩).map
      fun t => segments t turns) =
        .ok ["> wrote 2 bytes to s/execute\n", "> Skill\n", "> "] := by
    decide +kernel
  obtain ⟨t, ht⟩ : ∃ t, MountTable.ofPlan w ⟨[{ plugin := "skills", path := "/s" }]⟩ = .ok t :=
    ⟨_, rfl⟩
  rw [ht] at hplanned
  have hlaws := inert_lines_unnoticed ht
  have hgoing : ∀ l ∈ lines (encode "write s/execute go\n"), ¬ Quits l := by
    have hone : OneLine "write s/execute go" := by decide
    have hline : lines (encode "write s/execute go\n") = [encode "write s/execute go\n"] :=
      lines_of_oneLine hone
    rw [hline, List.forall_mem_singleton, quits_encode]
    decide +kernel
  obtain ⟨first, rest, hturns, hfirst, -, hunnoticed⟩ := hlaws.inserted "write s/execute go\n"
    "cat s/result 0 5\nquit\nmounts" "bogus" _ turns (turn "bogus\n")
    (.inr ⟨"write s/execute go", rfl⟩) hgoing (by decide) (.wrong rfl) rfl rfl
  have hs : s.Orderly := by
    refine ⟨⟨_, rfl⟩, ⟨⟨_, rfl⟩, fun _ => nofun⟩, ?_⟩
    rintro request err hpost
    cases hpost
    exact ⟨_, rfl⟩
  refine ⟨t, ht, Except.ok.inj hplanned, ⟨first, rest, hturns, ?_, hunnoticed⟩, ?_, ?_⟩
  · exact (List.length_map Turn.line).symm.trans (congrArg List.length hfirst)
  · exact (hlaws.shutDown turns w ⟨0⟩ rfl).1
  · apply hlaws.calm
    intro turn hturn
    obtain ⟨line, -, rfl⟩ := List.mem_map.1 hturn
    exact hs

end FileEndpoints.Console
