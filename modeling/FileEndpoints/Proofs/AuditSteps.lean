import FileEndpoints.Proofs.FailedRuns
import FileEndpoints.Proofs.LockedRuns

namespace FileEndpoints

open Time (Instant)

inductive Run.EndsWith (r : Run) : LogEntry → Prop
  | completed {text} (h : r.outcome = .completed text) :
      EndsWith r { time := r.endedAt, level := .info, message := "Skill execution completed" }
  | failed {message} (h : r.outcome = .failed message) :
      EndsWith r { time := r.endedAt, level := .error, message }

def Skill.writeMessage (path : String) : String :=
  if path = "/metadata" then "Updated metadata"
  else if path = "/instructions" then "Updated instructions"
  else "Received new execution payload"

/-- The message that notes an operation on a skill endpoint, if it is meant to change something. -/
def LockedOperation.message? : LockedOperation → Option String
  | .use (.configure _) => some "SkillsFS initialized"
  | .use .shutdown => some "SkillsFS shutdown"
  | .use (.write path _) | .begin path _ => some (Skill.writeMessage path)
  | _ => none

def LockedOperation.readsResult : LockedOperation → Bool
  | .use (.read path _ _) => path == "/result"
  | _ => false

/-- An operation on a skill endpoint, with the endpoint before it and what the surroundings answer
while it lasts. -/
structure SkillStep where
  before : Skill
  services : Services
  operation : LockedOperation

namespace SkillStep

def outcome (x : SkillStep) : Outcome Skill LockedAnswer :=
  x.operation.direct x.services x.before

def after (x : SkillStep) : Skill :=
  x.outcome.state

def runs (x : SkillStep) : List (Invocation × Run) :=
  x.outcome.effects.filterMap fun
    | .ran i => some (i, x.services.run i)
    | .posted _ => none

/-- Whether a step read the result when there was a payload, without a run. -/
def servesCached (x : SkillStep) : Bool :=
  x.operation.readsResult && x.before.cache.hasPayload && x.outcome.effects.isEmpty

inductive Adds (x : SkillStep) : List LogEntry → Prop
  | nothing (he : x.outcome.effects = []) (hserves : x.servesCached = false)
      (h : x.operation.message? = none ∨ ∃ err, x.outcome.answer = .error err) : Adds x []
  | changed {now message a} (he : x.outcome.effects = []) (hc : x.services.clock = .ok now)
      (hm : x.operation.message? = some message) (ha : x.outcome.answer = .ok a) :
      Adds x [{ time := now, level := .info, message }]
  | served {now} (hc : x.services.clock = .ok now) (hserves : x.servesCached = true) :
      Adds x [{ time := now, level := .debug, message := "Cache hit for /result" }]
  | ran {i ending} (he : x.outcome.effects = [.ran i]) (hreads : x.operation.readsResult = true)
      (hc : x.services.clock = .ok i.executedAt) (hend : (x.services.run i).EndsWith ending) :
      Adds x [Skill.runEntry i, ending]

end SkillStep

namespace Skill

/-- A change is made and noted, or it is refused and not noted. -/
inductive Noted {α : Type} (k : Skill) (now : Instant) (message : String) (o : Outcome Skill α) :
    Prop
  | made {a} (ha : o.answer = .ok a) (he : o.effects = [])
      (hlog : o.state.log.entries = k.log.entries ++ [{ time := now, level := .info, message }])
  | refused {err} (ha : o.answer = .error err) (he : o.effects = [])
      (hlog : o.state.log.entries = k.log.entries)

section

variable {s : Services} {k : Skill} {now : Instant} {message : String}

theorem Noted.mapAnswer {α β : Type} {o : Outcome Skill α} (h : Noted k now message o)
    (f : α → β) : Noted k now message (o.mapAnswer f) := by
  cases h with
  | made ha he hlog => exact .made (congrArg (Except.map f) ha) he hlog
  | refused ha he hlog => exact .refused (congrArg (Except.map f) ha) he hlog

theorem configure_noted (hc : s.clock = .ok now) (document : Option String) :
    Noted k now "SkillsFS initialized" (k.configure s document) := by
  simp only [configure]
  cases Patch.parse document with
  | error err => exact .refused rfl rfl rfl
  | ok patch =>
    simp only [hc, Outcome.timed]
    exact .made rfl rfl rfl

theorem shutdown_noted (hc : s.clock = .ok now) :
    Noted k now "SkillsFS shutdown" (k.shutdown s) := by
  simp only [shutdown, hc, Outcome.timed]
  exact .made rfl rfl rfl

theorem beginWrite_noted (hc : s.clock = .ok now) (path : String) (data : Bytes) :
    Noted k now (writeMessage path) (k.beginWrite s path data) := by
  simp only [beginWrite]
  cases hf : tree.writable path with
  | error err => exact .refused rfl rfl rfl
  | ok f =>
    obtain ⟨rfl, hw⟩ := Tree.path_of_writable hf
    cases f with
    | metadata =>
      simp only [hc, Outcome.timed]
      exact .made rfl rfl rfl
    | instructions =>
      simp only [hc, Outcome.timed]
      exact .made rfl rfl rfl
    | execute =>
      simp only [queue, hc, Outcome.timed]
      cases isBlankPayload data with
      | true => exact .refused rfl rfl rfl
      | false => exact .made rfl rfl rfl
    | result => cases hw
    | status => cases hw
    | log => cases hw

theorem hasPayload_eq (k : Skill) : k.cache.hasPayload = k.queued?.isSome := by
  simp only [ResponseCache.hasPayload, queued?]
  cases k.cache.payload with
  | none => rfl
  | some data =>
    simp only [Option.any_some, Option.filter_some]
    cases isBlankPayload data <;> rfl

theorem runOn_noted (hs : s.Calm) (now : Instant) (data : Bytes) :
    ∃ ending, (s.run (k.invocation now data)).EndsWith ending ∧
      (k.runOn s now data).state.log.entries =
        k.log.entries ++ [runEntry (k.invocation now data), ending] := by
  simp only [runOn]
  cases hrun : (s.run (k.invocation now data)).outcome with
  | completed text => exact ⟨_, .completed hrun, List.append_assoc k.log.entries [_] [_]⟩
  | failed message => exact ⟨_, .failed hrun, List.append_assoc k.log.entries [_] [_]⟩
  | crashed => exact absurd hrun (hs.runs _)

theorem currentResult_absent (hq : k.queued? = none) :
    k.currentResult s = { answer := .ok (Text.encode noPayload), state := k } := by
  simp only [queued?] at hq
  simp only [currentResult, hq]

theorem currentResult_fresh {data : Bytes} (hq : k.queued? = some data) (hc : s.clock = .ok now)
    (hf : k.isFresh now = true) :
    k.currentResult s =
      { answer := .ok k.shownResult
        state := (k.enter .completed true).note now .debug "Cache hit for /result" } := by
  simp only [queued?] at hq
  simp only [currentResult, hq, hc, Outcome.timed, hf, ↓reduceIte]
  rfl

/-- Only a read of the result has a lasting effect. -/
theorem read_elsewhere {path : String} (hpath : path ≠ "/result") (s : Services) (k : Skill)
    (offset size : Int) :
    (k.read s path offset size).effects = [] ∧ (k.read s path offset size).state = k := by
  simp only [read]
  cases hf : tree.readable path with
  | error err => exact ⟨rfl, rfl⟩
  | ok f =>
    obtain ⟨hp, hr⟩ := Tree.path_of_readable hf
    cases f with
    | metadata => exact ⟨rfl, rfl⟩
    | instructions => exact ⟨rfl, rfl⟩
    | status => exact ⟨rfl, rfl⟩
    | log => exact ⟨rfl, rfl⟩
    | result => exact absurd hp hpath
    | execute => cases hr

end

end Skill

namespace SkillStep

variable {x : SkillStep}

theorem servesCached_of_not_reads (h : x.operation.readsResult = false) :
    x.servesCached = false := by
  simp only [servesCached, h, Bool.false_and]

theorem not_reads_of_message {operation : LockedOperation} {message : String}
    (h : operation.message? = some message) : operation.readsResult = false := by
  cases operation with
  | use operation =>
    cases operation with
    | read path offset size => cases h
    | _ => rfl
  | _ => rfl

theorem adds_noted {now : Instant} {message : String} (hc : x.services.clock = .ok now)
    (hm : x.operation.message? = some message) (h : Skill.Noted x.before now message x.outcome) :
    ∃ entries, x.Adds entries ∧ x.after.log.entries = x.before.log.entries ++ entries := by
  cases h with
  | made ha he hlog => exact ⟨_, .changed he hc hm ha, hlog⟩
  | refused ha he hlog =>
    have hserves := servesCached_of_not_reads (not_reads_of_message hm)
    exact ⟨[], .nothing he hserves (.inr ⟨_, ha⟩), hlog.trans (List.append_nil _).symm⟩

theorem adds_nothing (he : x.outcome.effects = []) (hlog : x.after.log = x.before.log)
    (hserves : x.servesCached = false) (hm : x.operation.message? = none) :
    ∃ entries, x.Adds entries ∧ x.after.log.entries = x.before.log.entries ++ entries := by
  refine ⟨[], .nothing he hserves (.inl hm), ?_⟩
  rw [hlog, List.append_nil]

theorem adds_result {offset size : Int} (hx : x.operation = .use (.read "/result" offset size))
    (hs : x.services.Calm) :
    ∃ entries, x.Adds entries ∧ x.after.log.entries = x.before.log.entries ++ entries := by
  obtain ⟨k, s, operation⟩ := x
  obtain rfl : operation = .use (.read "/result" offset size) := hx
  obtain ⟨now, hc⟩ : ∃ now, s.clock = .ok now := hs.clock
  have heffects : (outcome ⟨k, s, .use (.read "/result" offset size)⟩).effects =
      (k.currentResult s).effects := rfl
  have hafter : after ⟨k, s, .use (.read "/result" offset size)⟩ = (k.currentResult s).state := rfl
  have hpayload := k.hasPayload_eq
  -- There is nothing to run, or the result is fresh, or the skill is run.
  cases hq : k.queued? with
  | none =>
    rw [Skill.currentResult_absent hq] at heffects hafter
    apply adds_nothing heffects (congrArg Skill.log hafter) ?_ rfl
    simp only [servesCached, hpayload, hq, Option.isSome_none, Bool.and_false, Bool.false_and]
  | some data =>
    cases hf : k.isFresh now with
    | true =>
      rw [Skill.currentResult_fresh hq hc hf] at heffects hafter
      refine ⟨_, .served hc ?_, congrArg (fun k : Skill => k.log.entries) hafter⟩
      simp only [servesCached, hpayload, hq, heffects, Option.isSome_some, Bool.and_true,
        List.isEmpty_nil, LockedOperation.readsResult, beq_self_eq_true]
    | false =>
      obtain ⟨ending, hend, hlog⟩ := Skill.runOn_noted (k := k) hs now data
      rw [Skill.currentResult_stale hq hc hf] at heffects hafter
      rw [Skill.runOn_effects] at heffects
      refine ⟨_, .ran heffects (beq_self_eq_true _) hc hend, ?_⟩
      rw [hafter]
      exact hlog

theorem adds (x : SkillStep) (hs : x.services.Calm) :
    ∃ entries, x.Adds entries ∧ x.after.log.entries = x.before.log.entries ++ entries := by
  obtain ⟨now, hc⟩ := hs.clock
  obtain ⟨k, s, operation⟩ := x
  cases operation with
  | name => exact adds_nothing rfl rfl rfl rfl
  | readme => exact adds_nothing rfl rfl rfl rfl
  | validate document => exact adds_nothing rfl rfl rfl rfl
  | finish call reply => exact adds_nothing rfl rfl rfl rfl
  | changeStructure change path => exact adds_nothing rfl rfl rfl rfl
  | begin path data =>
    exact adds_noted hc rfl ((Skill.beginWrite_noted hc path data).mapAnswer LockedAnswer.step)
  | use operation =>
    cases operation with
    | stat path => exact adds_nothing rfl rfl rfl rfl
    | list path => exact adds_nothing rfl rfl rfl rfl
    | configure document =>
      have hnoted := Skill.configure_noted (k := k) hc document
      exact adds_noted hc rfl (hnoted.mapAnswer fun _ => LockedAnswer.done)
    | shutdown =>
      have hnoted := Skill.shutdown_noted (k := k) hc
      exact adds_noted hc rfl (hnoted.mapAnswer fun _ => LockedAnswer.done)
    | write path data =>
      apply adds_noted hc rfl
      have hwrite := (Skill.beginWrite_noted (k := k) hc path data).mapAnswer fun _ => ()
      rw [← Skill.write_eq] at hwrite
      exact hwrite.mapAnswer fun _ => LockedAnswer.done
    | read path offset size =>
      by_cases hpath : path = "/result"
      · subst hpath
        exact adds_result rfl hs
      · obtain ⟨heffects, hstate⟩ := Skill.read_elsewhere hpath s k offset size
        have hreads := beq_eq_false_iff_ne.2 hpath
        exact adds_nothing (x := ⟨k, s, _⟩) heffects (congrArg Skill.log hstate)
          (servesCached_of_not_reads hreads) rfl

end SkillStep

end FileEndpoints
