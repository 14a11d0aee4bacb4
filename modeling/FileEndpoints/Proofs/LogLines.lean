import FileEndpoints.Proofs.AuditTrail
import FileEndpoints.Proofs.ConsoleLines
import FileEndpoints.Proofs.ShownSizes

namespace FileEndpoints

open Time (Instant)

namespace Text

def extendLine (c : Char) : List (List Char) → List (List Char)
  | [] => [[c]]
  | l :: ls => (c :: l) :: ls

/-- The lines of a text, without the line feeds that end them. -/
def splitLines : List Char → List (List Char)
  | [] => []
  | c :: s => if c = '\n' then [] :: splitLines s else extendLine c (splitLines s)

theorem extendLine_append (c : Char) {ls : List (List Char)} (h : ls ≠ [])
    (ms : List (List Char)) : extendLine c (ls ++ ms) = extendLine c ls ++ ms := by
  cases ls with
  | nil => exact absurd rfl h
  | cons l ls => rfl

theorem splitLines_ne_nil (s : List Char) : splitLines (s ++ ['\n']) ≠ [] := by
  cases s with
  | nil => exact List.cons_ne_nil _ _
  | cons c s =>
    rw [List.cons_append, splitLines]
    split
    · exact List.cons_ne_nil _ _
    · cases splitLines (s ++ ['\n']) <;> exact List.cons_ne_nil _ _

theorem splitLines_append (s rest : List Char) :
    splitLines (s ++ '\n' :: rest) = splitLines (s ++ ['\n']) ++ splitLines rest := by
  induction s with
  | nil => rfl
  | cons c s ih =>
    simp only [List.cons_append, splitLines, ih]
    split
    · rfl
    · exact extendLine_append c (splitLines_ne_nil s) _

theorem splitLines_single {l : List Char} (h : '\n' ∉ l) : splitLines (l ++ ['\n']) = [l] := by
  induction l with
  | nil => rfl
  | cons c l ih =>
    rw [List.mem_cons, not_or] at h
    rw [List.cons_append, splitLines, if_neg (Ne.symm h.1), ih h.2]
    rfl

theorem length_splitLines (s : List Char) :
    (splitLines (s ++ ['\n'])).length = s.count '\n' + 1 := by
  induction s with
  | nil => rfl
  | cons c s ih =>
    rw [List.cons_append, splitLines, List.count_cons]
    split
    case isTrue hc => rw [List.length_cons, ih, hc, beq_self_eq_true, if_pos rfl]
    case isFalse hc =>
      rw [beq_eq_false_iff_ne.2 hc, if_neg Bool.false_ne_true, Nat.add_zero, ← ih]
      have hne := splitLines_ne_nil s
      cases hlines : splitLines (s ++ ['\n']) with
      | nil => exact absurd hlines hne
      | cons l ls => rfl

theorem single_of_mem_splitLines {s l : List Char} (h : l ∈ splitLines s) : '\n' ∉ l := by
  induction s generalizing l with
  | nil => cases h
  | cons c s ih =>
    rw [splitLines] at h
    split at h
    case isTrue hc =>
      rcases List.mem_cons.1 h with rfl | hl
      · exact List.not_mem_nil
      · exact ih hl
    case isFalse hc =>
      have hfront (l : List Char) (hl : '\n' ∉ l) : '\n' ∉ c :: l := by
        rw [List.mem_cons, not_or]
        exact ⟨Ne.symm hc, hl⟩
      cases hlines : splitLines s with
      | nil =>
        rw [hlines] at h
        rw [List.mem_singleton.1 h]
        exact hfront [] List.not_mem_nil
      | cons m ms =>
        rw [hlines] at h ih
        rcases List.mem_cons.1 h with rfl | hl
        · exact hfront m (ih (List.mem_cons_self ..))
        · exact ih (List.mem_cons_of_mem _ hl)

end Text

def LogEntry.text (e : LogEntry) : String :=
  "[" ++ e.time.stamp ++ "] [" ++ e.level.name ++ "] " ++ e.message

def LogEntry.feeds (e : LogEntry) : Nat :=
  e.message.toList.count '\n'

namespace Text

def OneLine (s : String) : Prop :=
  '\n' ∉ s.toList

instance (s : String) : Decidable (OneLine s) :=
  inferInstanceAs (Decidable ('\n' ∉ s.toList))

theorem oneLine_append {s t : String} : OneLine (s ++ t) ↔ OneLine s ∧ OneLine t := by
  rw [OneLine, String.toList_append, List.mem_append, not_or]
  rfl

theorem natPadded_oneLine (width n : Nat) : OneLine (natPadded width n) := by
  intro hmem
  rw [natPadded, String.toList_ofList] at hmem
  rcases List.mem_append.1 hmem with hmem | hmem
  · cases List.eq_of_mem_replicate hmem
  · cases (word_toDigits n).2 '\n' hmem

end Text

theorem Time.yearText_oneLine (y : Int) : Text.OneLine (Time.yearText y) := by
  rw [yearText]
  split
  · exact Text.natPadded_oneLine _ _
  · apply Text.oneLine_append.2
    refine ⟨?_, Text.natPadded_oneLine _ _⟩
    split <;> decide

theorem Time.Instant.stamp_oneLine (t : Instant) : Text.OneLine t.stamp := by
  have hmarks : Text.OneLine "-" ∧ Text.OneLine " " ∧ Text.OneLine ":" := by decide
  simp only [stamp, Text.oneLine_append, Text.natPadded_oneLine, yearText_oneLine, hmarks, and_self]

namespace LogEntry

theorem line_eq (e : LogEntry) : e.line.toList = e.text.toList ++ ['\n'] := by
  rw [line, text]
  simp only [String.toList_append]
  rfl

/-- Only the message of an entry can have line feeds. -/
theorem count_text (e : LogEntry) : e.text.toList.count '\n' = e.feeds := by
  have hstamp := List.count_eq_zero.2 e.time.stamp_oneLine
  have hlevel : e.level.name.toList.count '\n' = 0 := by
    cases e.level <;> decide
  have hmarks : "[".toList.count '\n' = 0 ∧ "] [".toList.count '\n' = 0 ∧
      "] ".toList.count '\n' = 0 := by decide
  simp only [text, String.toList_append, List.count_append, hstamp, hlevel, hmarks, Nat.zero_add]
  rfl

def shownLines (e : LogEntry) : List (List Char) :=
  Text.splitLines e.line.toList

theorem length_shownLines (e : LogEntry) : e.shownLines.length = e.feeds + 1 := by
  rw [shownLines, line_eq, Text.length_splitLines, count_text]

theorem oneLine_text {e : LogEntry} : Text.OneLine e.text ↔ Text.OneLine e.message := by
  rw [Text.OneLine, ← List.count_eq_zero, count_text, feeds, List.count_eq_zero]
  rfl

theorem shownLines_single {e : LogEntry} (h : Text.OneLine e.message) :
    e.shownLines = [e.text.toList] := by
  rw [shownLines, line_eq, Text.splitLines_single (oneLine_text.2 h)]

end LogEntry

namespace AuditLog

theorem splitLines_render (entries : List LogEntry) :
    Text.splitLines (render ⟨entries⟩).toList = entries.flatMap LogEntry.shownLines := by
  rw [render, String.toList_join, List.flatMap_map]
  induction entries with
  | nil => rfl
  | cons e entries ih =>
    rw [List.flatMap_cons, List.flatMap_cons, ← ih, e.line_eq, List.append_assoc,
      List.singleton_append, Text.splitLines_append, ← e.line_eq]
    rfl

theorem length_splitLines_render (entries : List LogEntry) :
    (Text.splitLines (render ⟨entries⟩).toList).length =
      entries.length + (entries.flatMap (·.message.toList)).count '\n' := by
  rw [splitLines_render]
  induction entries with
  | nil => rfl
  | cons e entries ih =>
    rw [List.flatMap_cons, List.flatMap_cons, List.length_append, List.count_append, ih,
      e.length_shownLines, LogEntry.feeds, List.length_cons]
    omega

/-- Each entry is one line just when no message has a line feed. -/
theorem splitLines_render_eq_iff (entries : List LogEntry) :
    Text.splitLines (render ⟨entries⟩).toList = entries.map (·.text.toList) ↔
      ∀ e ∈ entries, Text.OneLine e.message := by
  constructor
  · intro h e he
    have hmem : e.text.toList ∈ Text.splitLines (render ⟨entries⟩).toList := by
      rw [h]
      exact List.mem_map_of_mem he
    exact LogEntry.oneLine_text.1 (Text.single_of_mem_splitLines hmem)
  · intro h
    rw [splitLines_render, List.map_eq_flatMap]
    exact List.flatMap_congr fun e he => LogEntry.shownLines_single (h e he)

end AuditLog

/-- A log that has grown by entries of which only the given ones can have line feeds. -/
def Grows (before after : List LogEntry) (failures : LogEntry → Prop) : Prop :=
  ∃ added, after = before ++ added ∧ (∀ e, failures e → e ∈ added) ∧
    ∀ e ∈ added, ¬ Text.OneLine e.message → failures e

namespace Grows

variable {before between after : List LogEntry} {p q : LogEntry → Prop}

theorem refl (entries : List LogEntry) : Grows entries entries fun _ => False :=
  ⟨[], (List.append_nil _).symm, nofun, nofun⟩

theorem add {e : LogEntry} (h : Text.OneLine e.message) :
    Grows before (before ++ [e]) fun _ => False := by
  refine ⟨[e], rfl, nofun, fun e' he' hfeed => ?_⟩
  rw [List.mem_singleton.1 he'] at hfeed
  exact hfeed h

theorem fail (e : LogEntry) : Grows before (before ++ [e]) (· = e) :=
  ⟨[e], rfl, fun _ he => List.mem_singleton.2 he, fun _ he _ => List.mem_singleton.1 he⟩

theorem trans (h : Grows before between p) (h' : Grows between after q) :
    Grows before after fun e => p e ∨ q e := by
  obtain ⟨added, rfl, hin, hout⟩ := h
  obtain ⟨more, rfl, hin', hout'⟩ := h'
  refine ⟨added ++ more, List.append_assoc .., ?_, ?_⟩
  · rintro e (he | he)
    · exact List.mem_append_left _ (hin e he)
    · exact List.mem_append_right _ (hin' e he)
  · intro e he hfeed
    rcases List.mem_append.1 he with he | he
    · exact .inl (hout e he hfeed)
    · exact .inr (hout' e he hfeed)

theorem congr (h : Grows before after p) (hpq : ∀ e, p e ↔ q e) : Grows before after q := by
  have hsame : p = q := funext fun e => propext (hpq e)
  exact hsame ▸ h

end Grows

namespace Skill

inductive Fails (k : Skill) (s : Services) : Move → LogEntry → Prop
  | run {offset size i message} (hran : .ran i ∈ (k.read s "/result" offset size).effects)
      (hfail : (s.run i).outcome = .failed message) :
      Fails k s (.use (.read "/result" offset size))
        { time := (s.run i).endedAt, level := .error, message }

/-- The entries of the runs that fail in moves made one after another. -/
inductive FailsIn : Skill → List (Services × Move) → LogEntry → Prop
  | here {k m moves e} (h : Fails k m.1 m.2 e) : FailsIn k (m :: moves) e
  | later {k m moves e} (h : FailsIn (k.move m.1 m.2) moves e) : FailsIn k (m :: moves) e

section

variable {s : Services} {k : Skill}

theorem timed_grows {α : Type} {k' : Skill} {level : LogLevel} {message : String}
    {next : Instant → Outcome Skill α} (hmessage : Text.OneLine message) (hlog : k'.log = k.log)
    (hnext : ∀ now, (next now).state.log = k.log.append now level message)
    (reading : Time.Reading) :
    Grows k.log.entries (Outcome.timed reading k' next).state.log.entries fun _ => False := by
  apply Outcome.timed_preserves
    (P := fun k' : Skill => Grows k.log.entries k'.log.entries fun _ => False)
  · rw [hlog]
    exact .refl _
  · intro now
    rw [hnext now]
    exact .add hmessage

theorem configure_grows (s : Services) (k : Skill) (document : Option String) :
    Grows k.log.entries (k.configure s document).state.log.entries fun _ => False := by
  have hmessage : Text.OneLine "SkillsFS initialized" := by decide
  simp only [configure]
  cases Patch.parse document with
  | error err => exact .refl _
  | ok patch => exact timed_grows hmessage rfl (fun _ => rfl) _

theorem shutdown_grows (s : Services) (k : Skill) :
    Grows k.log.entries (k.shutdown s).state.log.entries fun _ => False := by
  have hmessage : Text.OneLine "SkillsFS shutdown" := by decide
  exact timed_grows hmessage rfl (fun _ => rfl) _

theorem beginWrite_grows (s : Services) (k : Skill) (path : String) (data : Bytes) :
    Grows k.log.entries (k.beginWrite s path data).state.log.entries fun _ => False := by
  have hmessages : Text.OneLine "Updated metadata" ∧ Text.OneLine "Updated instructions" ∧
      Text.OneLine "Received new execution payload" := by decide
  simp only [beginWrite]
  split
  · exact .refl _
  · exact timed_grows hmessages.1 rfl (fun _ => rfl) _
  · exact timed_grows hmessages.2.1 rfl (fun _ => rfl) _
  · simp only [queue]
    split
    · exact .refl _
    · exact timed_grows hmessages.2.2 rfl (fun _ => rfl) _

theorem runOn_grows (s : Services) (k : Skill) (now : Instant) (data : Bytes) :
    Grows k.log.entries (k.runOn s now data).state.log.entries fun e =>
      ∃ message, (s.run (k.invocation now data)).outcome = .failed message ∧
        e = { time := (s.run (k.invocation now data)).endedAt, level := .error, message } := by
  have hmessages : Text.OneLine "Executing skill payload" ∧
      Text.OneLine "Skill execution completed" := by decide
  have hbegun : Grows k.log.entries (k.beginRun now).log.entries fun _ => False :=
    .add hmessages.1
  simp only [runOn]
  cases (s.run (k.invocation now data)).outcome with
  | completed text =>
    apply (hbegun.trans (.add hmessages.2)).congr
    simp
  | failed message =>
    apply (hbegun.trans (.fail _)).congr
    simp
  | crashed =>
    apply hbegun.congr
    simp

theorem fails_iff {i : Invocation} {offset size : Int}
    (h : (k.read s "/result" offset size).effects = [.ran i]) (e : LogEntry) :
    Fails k s (.use (.read "/result" offset size)) e ↔
      ∃ message, (s.run i).outcome = .failed message ∧
        e = { time := (s.run i).endedAt, level := .error, message } := by
  constructor
  · rintro ⟨hran, hfail⟩
    rw [h, List.mem_singleton] at hran
    obtain rfl := Effect.ran.inj hran
    exact ⟨_, hfail, rfl⟩
  · rintro ⟨message, hfail, rfl⟩
    apply Fails.run ?_ hfail
    rw [h]
    exact List.mem_singleton.2 rfl

theorem not_fails {offset size : Int} (h : (k.read s "/result" offset size).effects = [])
    (e : LogEntry) : ¬ Fails k s (.use (.read "/result" offset size)) e := by
  rintro ⟨hran, -⟩
  rw [h] at hran
  cases hran

theorem read_result_grows (s : Services) (k : Skill) (offset size : Int) :
    Grows k.log.entries (k.currentResult s).state.log.entries
      (Fails k s (.use (.read "/result" offset size))) := by
  have heffects : (k.read s "/result" offset size).effects = (k.currentResult s).effects := rfl
  have hhit : Text.OneLine "Cache hit for /result" := by decide
  cases hq : k.queued? with
  | none =>
    rw [currentResult_absent hq] at heffects ⊢
    exact (Grows.refl _).congr fun e => iff_of_false id (not_fails heffects e)
  | some data =>
    cases hc : s.clock with
    | error err =>
      have hcurrent : (k.currentResult s).effects = [] ∧ (k.currentResult s).state = k := by
        simp only [queued?] at hq
        simp only [currentResult, hq, hc, Outcome.timed, and_self]
      rw [hcurrent.2]
      rw [hcurrent.1] at heffects
      exact (Grows.refl _).congr fun e => iff_of_false id (not_fails heffects e)
    | ok now =>
      cases hf : k.isFresh now with
      | true =>
        rw [currentResult_fresh hq hc hf] at heffects ⊢
        exact (Grows.add hhit).congr fun e => iff_of_false id (not_fails heffects e)
      | false =>
        rw [currentResult_stale hq hc hf] at heffects ⊢
        rw [runOn_effects] at heffects
        exact (k.runOn_grows s now data).congr fun e => (fails_iff heffects e).symm

theorem move_grows (s : Services) (k : Skill) (m : Move) :
    Grows k.log.entries (k.move s m).log.entries (Fails k s m) := by
  cases m with
  | begin path data => exact (k.beginWrite_grows s path data).congr fun e => iff_of_false id nofun
  | finish number reply => exact (Grows.refl _).congr fun e => iff_of_false id nofun
  | use operation =>
    cases operation with
    | configure document =>
      exact (k.configure_grows s document).congr fun e => iff_of_false id nofun
    | shutdown => exact (k.shutdown_grows s).congr fun e => iff_of_false id nofun
    | stat path => exact (Grows.refl _).congr fun e => iff_of_false id nofun
    | list path => exact (Grows.refl _).congr fun e => iff_of_false id nofun
    | write path data =>
      exact (k.beginWrite_grows s path data).congr fun e => iff_of_false id nofun
    | read path offset size =>
      by_cases hpath : path = "/result"
      · subst hpath
        exact k.read_result_grows s offset size
      · have hkept : k.move s (.use (.read path offset size)) = k :=
          (read_elsewhere hpath s k offset size).2
        rw [hkept]
        apply (Grows.refl _).congr fun e => iff_of_false id ?_
        rintro ⟨-, -⟩
        exact hpath rfl

end

end Skill

theorem Session.run_grows (w : Session Skill) (moves : List (Services × Move)) :
    Grows w.endpoint.log.entries (w.run moves).endpoint.log.entries
      (Skill.FailsIn w.endpoint moves) := by
  induction moves generalizing w with
  | nil => exact (Grows.refl _).congr fun e => iff_of_false id nofun
  | cons m moves ih =>
    have hstep := w.endpoint.move_grows m.1 m.2
    have hlater := ih (w.step m.1 m.2)
    rw [w.skill_step] at hlater
    apply (hstep.trans hlater).congr
    intro e
    constructor
    · rintro (h | h)
      · exact .here h
      · exact .later h
    · rintro (h | h)
      · exact .inl h
      · exact .inr h

/-- How a log is read line by line, given the entries of the runs that failed. -/
structure LogRead (k : Skill) (failures : LogEntry → Prop) : Prop where
  shown : ∀ s, (k.read s "/log" 0 (-1)).answer = .ok (Text.encode k.log.render)
  /-- Each entry shows as lines of its own, one more than its message has line feeds. -/
  lines : Text.splitLines k.log.render.toList = k.log.entries.flatMap LogEntry.shownLines
  count : (Text.splitLines k.log.render.toList).length =
    k.log.entries.length + (k.log.entries.flatMap (·.message.toList)).count '\n'
  single : Text.splitLines k.log.render.toList = k.log.entries.map (·.text.toList) ↔
    ∀ e, failures e → Text.OneLine e.message

/-- The log of a skill has one line for each entry just when no failed run has put a line feed into
it, whatever else has happened. -/
theorem log_line_per_entry_iff (created : Instant) (moves : List (Services × Move)) :
    LogRead ((Session.start (Skill.create created)).run moves).endpoint
      (Skill.FailsIn (Skill.create created) moves) := by
  have hgrounded := Skill.Grounded.run created moves
  have hmessage : Text.OneLine "SkillsFS plugin created" := by decide
  obtain ⟨added, hentries, hin, hout⟩ := (Session.start (Skill.create created)).run_grows moves
  apply LogRead.mk
  case shown => exact Skill.read_log hgrounded.logged
  case lines => exact AuditLog.splitLines_render _
  case count => exact AuditLog.length_splitLines_render _
  case single =>
    apply (AuditLog.splitLines_render_eq_iff _).trans
    rw [hentries]
    constructor
    · intro h e he
      exact h e (List.mem_append_right _ (hin e he))
    · intro h e he
      rcases List.mem_append.1 he with he | he
      · rw [List.mem_singleton.1 he]
        exact hmessage
      · by_contra hfeed
        exact hfeed (h e (hout e he hfeed))

/-- A skill whose first run fails with this text, and what comes after. -/
def Skill.failedWith (message : String) (later : List Move) : Skill :=
  let s := Services.steady ⟨0⟩ (.error .noTransport) (.failed message)
  let moves := [.begin "/execute" [120], .use (.read "/result" 0 0)] ++ later
  ((Session.start (Skill.create ⟨0⟩)).run (moves.map (s, ·))).endpoint

/-- An entry of two lines can look like two entries: the text of a failed run writes the shutdown
that is still to come. -/
theorem failed_run_forges_entry :
    (¬ ∀ (created : Instant) (moves : List (Services × Move)),
      let k := ((Session.start (Skill.create created)).run moves).endpoint
      Text.splitLines k.log.render.toList = k.log.entries.map (·.text.toList)) ∧
    let forged := "down\n[1970-01-01 00:00:00] [INFO] SkillsFS shutdown"
    (Skill.failedWith forged []).log.render =
      (Skill.failedWith "down" [.use .shutdown]).log.render := by
  constructor
  · intro h
    let e : LogEntry := ⟨⟨0⟩, .error, "one\ntwo"⟩
    have hlines := h ⟨0⟩
      ([.begin "/execute" [120], .use (.read "/result" 0 0)].map
        (Services.steady ⟨0⟩ (.error .noTransport) (.failed e.message), ·))
    have hmem : e ∈ (Skill.failedWith e.message []).log.entries := by
      decide
    have hone : Text.OneLine e.message := (AuditLog.splitLines_render_eq_iff _).1 hlines e hmem
    exact absurd hone (by decide)
  · decide +kernel

end FileEndpoints
