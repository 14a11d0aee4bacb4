import FileEndpoints.Proofs.AuditSteps
import Mathlib.Data.List.Forall2

namespace FileEndpoints

open Time (Instant)

namespace LogEntry

def startsRun (e : LogEntry) : Bool :=
  e.level == .info && e.message == "Executing skill payload"

def isCacheHit (e : LogEntry) : Bool :=
  e.level == .debug && e.message == "Cache hit for /result"

end LogEntry

/-- The entries with which runs begin, each with the entry right after it. -/
def followers : List LogEntry → List (LogEntry × Option LogEntry)
  | [] => []
  | e :: later => if e.startsRun then (e, later.head?) :: followers later else followers later

theorem followers_length (entries : List LogEntry) :
    (followers entries).length = entries.countP LogEntry.startsRun := by
  induction entries with
  | nil => rfl
  | cons e later ih =>
    rw [followers, List.countP_cons]
    cases e.startsRun with
    | true => exact congrArg (· + 1) ih
    | false => exact ih

theorem followers_cons_of_not {e : LogEntry} (h : e.startsRun = false) (later : List LogEntry) :
    followers (e :: later) = followers later := by
  simp only [followers, h, Bool.false_eq_true, ↓reduceIte]

theorem LockedOperation.startsRun_of_message {operation : LockedOperation} {message : String}
    (h : operation.message? = some message) (time : Instant) :
    LogEntry.startsRun { time, level := .info, message } = false := by
  have hmessage : message ≠ "Executing skill payload" := by
    have hwrite (path : String) : Skill.writeMessage path ≠ "Executing skill payload" := by
      simp only [Skill.writeMessage]
      split
      · decide
      · split <;> decide
    intro hsame
    subst hsame
    cases operation with
    | begin path data => exact hwrite path (Option.some.inj h)
    | use operation =>
      cases operation with
      | write path data => exact hwrite path (Option.some.inj h)
      | configure document => exact absurd (Option.some.inj h) (by decide)
      | shutdown => exact absurd (Option.some.inj h) (by decide)
      | _ => cases h
    | _ => cases h
  simp only [LogEntry.startsRun, beq_eq_false_iff_ne.2 hmessage, Bool.and_false]

namespace Run.EndsWith

variable {r : Run} {e : LogEntry}

theorem startsRun (h : r.EndsWith e) : e.startsRun = false := by
  cases h with
  | completed h => rfl
  | failed h => rfl

theorem isCacheHit (h : r.EndsWith e) : e.isCacheHit = false := by
  cases h with
  | completed h => rfl
  | failed h => rfl

theorem time (h : r.EndsWith e) : e.time = r.endedAt := by
  cases h with
  | completed h => rfl
  | failed h => rfl

end Run.EndsWith

namespace SkillStep

def readings (x : SkillStep) : List Instant :=
  x.services.clock.toOption.toList ++ x.runs.map fun r => r.2.endedAt

/-- A run is in the log as an entry and the one after it. -/
def Stands (r : Invocation × Run) (entries : LogEntry × Option LogEntry) : Prop :=
  entries.1 = Skill.runEntry r.1 ∧ ∃ ending, entries.2 = some ending ∧ r.2.EndsWith ending

section

variable {x : SkillStep} {i : Invocation}

theorem runs_of_none (h : x.outcome.effects = []) : x.runs = [] := by
  rw [runs, h]
  rfl

theorem runs_of_ran (h : x.outcome.effects = [.ran i]) : x.runs = [(i, x.services.run i)] := by
  rw [runs, h]
  rfl

theorem effects_of_servesCached (h : x.servesCached = true) : x.outcome.effects = [] := by
  simp only [servesCached, Bool.and_eq_true] at h
  exact List.isEmpty_iff.1 h.2

theorem servesCached_of_ran (h : x.outcome.effects = [.ran i]) : x.servesCached = false := by
  simp only [servesCached, h, List.isEmpty_cons, Bool.and_false]

theorem Adds.followers {entries : List LogEntry} (h : x.Adds entries) (later : List LogEntry) :
    ∃ added, List.Forall₂ Stands x.runs added ∧
      FileEndpoints.followers (entries ++ later) = added ++ FileEndpoints.followers later := by
  -- The last entry of a step never begins a run, so what comes later is followed for itself.
  cases h with
  | nothing he hserves h => exact ⟨[], runs_of_none he ▸ .nil, rfl⟩
  | changed he hc hm ha =>
    refine ⟨[], runs_of_none he ▸ .nil, ?_⟩
    exact followers_cons_of_not (LockedOperation.startsRun_of_message hm _) later
  | served hc hserves =>
    refine ⟨[], runs_of_none (effects_of_servesCached hserves) ▸ .nil, ?_⟩
    exact followers_cons_of_not rfl later
  | @ran i ending he hreads hc hend =>
    refine ⟨[(Skill.runEntry i, some ending)], ?_, ?_⟩
    · rw [runs_of_ran he]
      exact .cons ⟨rfl, ending, rfl, hend⟩ .nil
    · have hstart : (Skill.runEntry i).startsRun = true := rfl
      simp only [List.cons_append, List.nil_append, FileEndpoints.followers, hstart, ↓reduceIte,
        List.head?_cons, hend.startsRun, Bool.false_eq_true]

theorem Adds.hits {entries : List LogEntry} (h : x.Adds entries) :
    entries.countP LogEntry.isCacheHit = if x.servesCached then 1 else 0 := by
  cases h with
  | nothing he hserves h => rw [hserves]; rfl
  | changed he hc hm ha =>
    rw [servesCached_of_not_reads (not_reads_of_message hm)]
    rfl
  | served hc hserves =>
    rw [hserves]
    rfl
  | @ran i ending he hreads hc hend =>
    have hstart : (Skill.runEntry i).isCacheHit = false := rfl
    simp only [servesCached_of_ran he, List.countP_cons, List.countP_nil, hstart, hend.isCacheHit,
      Bool.false_eq_true, ↓reduceIte]

theorem Adds.times {entries : List LogEntry} (h : x.Adds entries) :
    (entries.map LogEntry.time).Sublist x.readings := by
  cases h with
  | nothing he hserves h => exact List.nil_sublist _
  | changed he hc hm ha =>
    rw [readings, hc]
    exact List.sublist_append_left _ _
  | served hc hserves =>
    rw [readings, hc]
    exact List.sublist_append_left _ _
  | ran he hreads hc hend =>
    rw [readings, hc, runs_of_ran he, List.map_cons, List.map_cons, hend.time]
    exact List.Sublist.refl _

end

def steps (k : Skill) : List (Services × LockedOperation) → List SkillStep
  | [] => []
  | u :: uses =>
    let x : SkillStep := { before := k, services := u.1, operation := u.2 }
    x :: steps x.after uses

def last (k : Skill) (uses : List (Services × LockedOperation)) : Skill :=
  (account (fun (k : Skill) u => u.2.direct u.1 k) k uses).state

/-- The entries that the steps of a run add to the log. -/
inductive Recorded : List SkillStep → List LogEntry → Prop
  | nil : Recorded [] []
  | cons {x xs entries later} (h : x.Adds entries) (hlater : Recorded xs later) :
      Recorded (x :: xs) (entries ++ later)

theorem recorded (k : Skill) {uses : List (Services × LockedOperation)}
    (hcalm : ∀ u ∈ uses, u.1.Calm) : ∃ added, Recorded (steps k uses) added ∧
      (last k uses).log.entries = k.log.entries ++ added := by
  -- Whatever the first step leaves behind is where the others start.
  induction uses generalizing k with
  | nil => exact ⟨[], .nil, (List.append_nil _).symm⟩
  | cons u uses ih =>
    let x : SkillStep := { before := k, services := u.1, operation := u.2 }
    obtain ⟨entries, hadds, hlog⟩ := x.adds (hcalm u (List.mem_cons_self ..))
    obtain ⟨later, hlater, hlast⟩ := ih x.after fun u hu => hcalm u (List.mem_cons_of_mem _ hu)
    refine ⟨entries ++ later, .cons hadds hlater, ?_⟩
    rw [← List.append_assoc]
    exact hlast.trans (congrArg (· ++ later) hlog)

/-- In a run, each operation finds the log with what was there at the beginning. -/
theorem grown {k : Skill} {uses : List (Services × LockedOperation)}
    (hcalm : ∀ u ∈ uses, u.1.Calm) : ∀ x ∈ steps k uses,
      x.services.Calm ∧ k.log.entries <+: x.before.log.entries := by
  induction uses generalizing k with
  | nil =>
    intro x hx
    cases hx
  | cons u uses ih =>
    intro x hx
    have hfirst := hcalm u (List.mem_cons_self ..)
    cases hx with
    | head => exact ⟨hfirst, List.prefix_refl _⟩
    | tail _ hx =>
      obtain ⟨entries, -, hlog⟩ := SkillStep.adds ⟨k, u.1, u.2⟩ hfirst
      obtain ⟨hs, hprefix⟩ := ih (fun u hu => hcalm u (List.mem_cons_of_mem _ hu)) x hx
      exact ⟨hs, List.IsPrefix.trans ⟨entries, hlog.symm⟩ hprefix⟩

namespace Recorded

variable {xs : List SkillStep} {entries : List LogEntry}

theorem followers (h : Recorded xs entries) :
    List.Forall₂ Stands (xs.flatMap runs) (FileEndpoints.followers entries) := by
  induction h with
  | nil => exact .nil
  | cons h hlater ih =>
    obtain ⟨added, hadded, hfollowers⟩ := h.followers _
    rw [hfollowers, List.flatMap_cons]
    exact List.rel_append hadded ih

theorem hits (h : Recorded xs entries) :
    entries.countP LogEntry.isCacheHit = xs.countP servesCached := by
  induction h with
  | nil => rfl
  | cons h hlater ih => rw [List.countP_append, h.hits, ih, List.countP_cons, Nat.add_comm]

theorem times (h : Recorded xs entries) :
    (entries.map LogEntry.time).Sublist (xs.flatMap readings) := by
  induction h with
  | nil => exact List.nil_sublist _
  | cons h hlater ih =>
    rw [List.map_append, List.flatMap_cons]
    exact h.times.append ih

end Recorded

end SkillStep

theorem Text.encodeChar_ne_nil (c : Char) : encodeChar c ≠ [] := by
  simp only [encodeChar]
  split
  · exact List.cons_ne_nil _ _
  · split
    · exact List.cons_ne_nil _ _
    · split <;> exact List.cons_ne_nil _ _

namespace AuditLog

theorem render_append (entries more : List LogEntry) :
    Text.encode (render ⟨entries ++ more⟩) =
      Text.encode (render ⟨entries⟩) ++ Text.encode (render ⟨more⟩) := by
  simp only [Text.encode, Text.encodeChars, render, List.map_append, String.toList_join,
    List.flatMap_append]

theorem render_ne_nil {log : AuditLog} (h : log.entries ≠ []) : Text.encode log.render ≠ [] := by
  obtain ⟨entries⟩ := log
  cases entries with
  | nil => exact absurd rfl h
  | cons e later =>
    intro hempty
    have hstart : '[' ∈ (render ⟨e :: later⟩).toList := by
      rw [render, String.toList_join, List.map_cons, List.flatMap_cons]
      apply List.mem_append_left
      simp only [LogEntry.line, String.toList_append, List.mem_append]
      exact .inl (.inl (.inl (.inl (.inl (.inl (List.mem_singleton.2 rfl))))))
    exact Text.encodeChar_ne_nil '[' (List.flatMap_eq_nil_iff.1 hempty '[' hstart)

end AuditLog

theorem Skill.read_log {k : Skill} (h : k.log.entries ≠ []) (s : Services) :
    (k.read s "/log" 0 (-1)).answer = .ok (Text.encode k.log.render) := by
  have hshown : (Text.encode k.log.render).isEmpty = false :=
    Bool.eq_false_iff.2 fun hempty => AuditLog.render_ne_nil h (List.isEmpty_iff.1 hempty)
  have hread : (k.read s "/log" 0 (-1)).answer =
      .ok (readWindow (orPlaceholder (Text.encode k.log.render) "No log entries yet\n") 0 (-1)) :=
    rfl
  rw [hread, orPlaceholder, hshown]
  rfl

namespace SkillStep

/-- The log of a fresh endpoint over a run of operations. -/
structure Audited (created : Instant) (uses : List (Services × LockedOperation)) : Prop where
  kept : ∀ x ∈ steps (.create created) uses, x.before.log.entries <+: x.after.log.entries
  shown : ∀ x ∈ steps (.create created) uses, ∀ s s', ∃ text more,
    (x.before.read s "/log" 0 (-1)).answer = .ok text ∧
      (x.after.read s' "/log" 0 (-1)).answer = .ok (text ++ more)
  begun : (last (.create created) uses).log.entries.countP LogEntry.startsRun =
    ((steps (.create created) uses).flatMap runs).length
  /-- The runs, in order, are the beginnings in the log with what follows each of them. -/
  ended : List.Forall₂ Stands ((steps (.create created) uses).flatMap runs)
    (followers (last (.create created) uses).log.entries)
  hits : (last (.create created) uses).log.entries.countP LogEntry.isCacheHit =
    (steps (.create created) uses).countP servesCached
  made : ∀ x ∈ steps (.create created) uses, ∀ message a,
    x.operation.message? = some message → x.outcome.answer = .ok a →
      ∃ now, x.services.clock = .ok now ∧
        x.after.log.entries = x.before.log.entries ++ [{ time := now, level := .info, message }]
  silent : ∀ x ∈ steps (.create created) uses, x.operation.readsResult = false →
    (x.operation.message? = none ∨ ∃ err, x.outcome.answer = .error err) →
      x.after.log.entries = x.before.log.entries
  ordered :
    (created :: (steps (.create created) uses).flatMap readings).Pairwise (·.micros ≤ ·.micros) →
      ((last (.create created) uses).log.entries.map LogEntry.time).Pairwise (·.micros ≤ ·.micros)

section

variable {x : SkillStep}

theorem Adds.of_not_reads {entries : List LogEntry} (h : x.Adds entries)
    (hreads : x.operation.readsResult = false) :
    (x.operation.message? = none ∨ ∃ err, x.outcome.answer = .error err) ∧ entries = [] ∨
      ∃ now message a, x.services.clock = .ok now ∧ x.operation.message? = some message ∧
        x.outcome.answer = .ok a ∧ entries = [{ time := now, level := .info, message }] := by
  cases h with
  | nothing he hserves h => exact .inl ⟨h, rfl⟩
  | changed he hc hm ha => exact .inr ⟨_, _, _, hc, hm, ha, rfl⟩
  | served hc hserves => cases (servesCached_of_not_reads hreads).symm.trans hserves
  | ran he hreads' hc hend => cases hreads.symm.trans hreads'

theorem made_noted (hs : x.services.Calm) {message : String} {a : LockedAnswer}
    (hm : x.operation.message? = some message) (ha : x.outcome.answer = .ok a) :
    ∃ now, x.services.clock = .ok now ∧
      x.after.log.entries = x.before.log.entries ++ [{ time := now, level := .info, message }] := by
  obtain ⟨entries, hadds, hlog⟩ := x.adds hs
  rcases hadds.of_not_reads (not_reads_of_message hm) with
    ⟨hnone | ⟨err, herr⟩, -⟩ | ⟨now, _, _, hc, hm', -, rfl⟩
  · cases hnone.symm.trans hm
  · cases herr.symm.trans ha
  · obtain rfl := Option.some.inj (hm'.symm.trans hm)
    exact ⟨now, hc, hlog⟩

theorem silent_unnoted (hs : x.services.Calm) (hreads : x.operation.readsResult = false)
    (h : x.operation.message? = none ∨ ∃ err, x.outcome.answer = .error err) :
    x.after.log.entries = x.before.log.entries := by
  obtain ⟨entries, hadds, hlog⟩ := x.adds hs
  rcases hadds.of_not_reads hreads with ⟨-, rfl⟩ | ⟨_, _, _, -, hm, ha, -⟩
  · exact hlog.trans (List.append_nil _)
  · rcases h with hnone | ⟨err, herr⟩
    · cases hnone.symm.trans hm
    · cases herr.symm.trans ha

theorem log_shown (hs : x.services.Calm) (h : x.before.log.entries ≠ []) (s s' : Services) :
    ∃ text more, (x.before.read s "/log" 0 (-1)).answer = .ok text ∧
      (x.after.read s' "/log" 0 (-1)).answer = .ok (text ++ more) := by
  obtain ⟨entries, -, hlog⟩ := x.adds hs
  have hafter : x.after.log.entries ≠ [] := by
    rw [hlog]
    exact List.append_ne_nil_of_left_ne_nil h _
  refine ⟨_, Text.encode (AuditLog.render ⟨entries⟩), Skill.read_log h s, ?_⟩
  rw [Skill.read_log hafter s', ← AuditLog.render_append]
  exact congrArg (fun entries => Except.ok (Text.encode (AuditLog.render ⟨entries⟩))) hlog

end

/-- As long as nothing crashes, the log of a skill endpoint tells what has happened and nothing
else. -/
theorem log_tells_what_happened (created : Instant) (uses : List (Services × LockedOperation))
    (hcalm : ∀ u ∈ uses, u.1.Calm) : Audited created uses := by
  obtain ⟨added, hrecorded, hlog⟩ := recorded (.create created) hcalm
  have hgrown := grown (k := .create created) hcalm
  have hcreated : (Skill.create created).log.entries =
      [{ time := created, level := .info, message := "SkillsFS plugin created" }] := rfl
  have hended : List.Forall₂ Stands ((steps (.create created) uses).flatMap runs)
      (followers (last (.create created) uses).log.entries) := by
    rw [hlog, hcreated, List.singleton_append, followers_cons_of_not rfl]
    exact hrecorded.followers
  apply Audited.mk
  case kept =>
    intro x hx
    obtain ⟨entries, -, hafter⟩ := x.adds (hgrown x hx).1
    exact ⟨entries, hafter.symm⟩
  case shown =>
    intro x hx s s'
    obtain ⟨hs, hprefix⟩ := hgrown x hx
    apply log_shown hs
    intro hempty
    rw [hempty, hcreated, List.prefix_nil] at hprefix
    cases hprefix
  case begun => rw [← followers_length, hended.length_eq]
  case ended => exact hended
  case hits =>
    rw [hlog, List.countP_append, hrecorded.hits]
    exact Nat.zero_add _
  case made => exact fun x hx message a hm ha => made_noted (hgrown x hx).1 hm ha
  case silent => exact fun x hx hreads h => silent_unnoted (hgrown x hx).1 hreads h
  case ordered =>
    intro hclock
    rw [hlog, hcreated, List.singleton_append, List.map_cons]
    exact hclock.sublist (hrecorded.times.cons_cons created)

/-- Two runs of one payload, of which one fails, and an operation of each other kind. -/
theorem failed_run_logged :
    let good := Services.steady ⟨5⟩ (.error .noTransport) (.completed "done")
    let bad := Services.steady ⟨7⟩ (.error .noTransport) (.failed "down")
    let uses : List (Services × LockedOperation) :=
      [(good, .use (.configure none)), (good, .begin "/execute" [120]),
        (good, .use (.read "/result" 0 0)), (good, .use (.read "/result" 0 0)),
        (good, .use (.write "/execute" [32])), (bad, .use (.write "/execute" [121])),
        (bad, .use (.stat "/log")), (bad, .use (.read "/result" 0 0)), (bad, .use .shutdown)]
    Audited ⟨0⟩ uses ∧ (last (.create ⟨0⟩) uses).log.entries.map LogEntry.message =
      ["SkillsFS plugin created", "SkillsFS initialized", "Received new execution payload",
        "Executing skill payload", "Skill execution completed", "Cache hit for /result",
        "Received new execution payload", "Executing skill payload", "down",
        "SkillsFS shutdown"] := by
  intro good bad uses
  have hgood : good.Calm := ⟨⟨_, rfl⟩, fun _ h => by cases h⟩
  have hbad : bad.Calm := ⟨⟨_, rfl⟩, fun _ h => by cases h⟩
  have hcalm : ∀ u ∈ uses, u.1.Calm := by
    simp only [uses, List.forall_mem_cons, hgood, hbad, List.not_mem_nil, false_imp_iff,
      implies_true, and_self]
  exact ⟨log_tells_what_happened ⟨0⟩ uses hcalm, rfl⟩

end SkillStep

end FileEndpoints
